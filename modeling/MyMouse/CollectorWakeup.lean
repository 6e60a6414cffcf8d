import MyMouse.Collector
import MyMouse.Run

namespace MyMouse

open BitMask Runs

/-- How far a caller has got in `hid_collector_set_source_id_enabled`: `loaded` has read the
mask that `WRITE_BIT` changes, `stored` has written it and not yet posted the change. -/
inductive SetCall
  | idle
  | loaded (enabledSources : BitVec 32) (sourceId : Nat) (enabled : Bool)
  | stored
  deriving DecidableEq

/-- The collector among its callers. `loaded` is what the thread has read of the mask before it
writes it for the first time, `sampled` the mask read for the wait it entered last, and
`awaited` the sources which have notified it and whose fillers have not started since. -/
structure CollectorWakeup where
  collector : Collector
  loaded : Option (BitVec 32)
  sampled : BitVec 32
  calls : Nat → SetCall
  awaited : Nat → Bool

inductive WakeupStep
  | thread
  | filler (report : HidReport)
  | notify (sourceId : Nat)
  | setEnabled (caller : Nat) (sourceId : Int) (enabled : Bool)
  | storeEnabled (caller : Nat)
  | postChanged (caller : Nat)
  deriving DecidableEq

namespace CollectorWakeup

def start : CollectorWakeup :=
  { collector := .reset
    loaded := none
    sampled := 0#32
    calls := fun _ => .idle
    awaited := fun _ => false }

/-- The state as the thread sees it: its first write of the mask goes by what it has read. -/
def seen (s : CollectorWakeup) : CollectorWakeup :=
  { s with
    collector := { s.collector with enabledSources := s.loaded.getD s.collector.enabledSources }
    loaded := none }

/-- A filler that starts serves the notifications so far. -/
def awaitedAt (awaited : Nat → Bool) : CollectorPc → Nat → Bool
  | .filling sourceId _ => Function.update awaited sourceId false
  | _ => awaited

def afterThread (s : CollectorWakeup) (c : Collector) : CollectorWakeup :=
  { s with
    collector := c
    sampled := if s.collector.pc = .sampling then s.collector.enabledSources else s.sampled
    awaited := awaitedAt s.awaited c.pc }

section Steps

variable (numSources : Nat)

def threadStep (s : CollectorWakeup) : Option CollectorWakeup :=
  if s.collector.pc = .start ∧ s.loaded = none then
    some { s with loaded := some s.collector.enabledSources }
  else (hidCollectorThreadStep numSources s.seen.collector).map s.seen.afterThread

/-- Only a registered source notifies; any caller may set any id. -/
def step (s : CollectorWakeup) : WakeupStep → Option CollectorWakeup
  | .thread => threadStep numSources s
  | .filler report =>
    match s.collector.pc with
    | .filling _ _ => some { s with collector := { s.collector with report := report }.filled }
    | _ => none
  | .notify sourceId =>
    if sourceId < numSources then
      some { s with
        collector := hidCollectorNotifyDataAvailable sourceId s.collector
        awaited := Function.update s.awaited sourceId true }
    else none
  | .setEnabled caller sourceId enabled =>
    match s.calls caller with
    | .idle =>
      if sourceId < 0 ∨ sourceId ≥ MAX_NUM_OF_HID_SOURCES then some s
      else some { s with
        calls := Function.update s.calls caller
          (.loaded s.collector.enabledSources sourceId.toNat enabled) }
    | _ => none
  | .storeEnabled caller =>
    match s.calls caller with
    | .loaded enabledSources sourceId enabled =>
      some { s with
        collector := { s.collector with enabledSources := writeBit enabledSources sourceId enabled }
        calls := Function.update s.calls caller .stored }
    | _ => none
  | .postChanged caller =>
    match s.calls caller with
    | .stored =>
      some { s with
        collector := notifySourcesChanged s.collector
        calls := Function.update s.calls caller .idle }
    | _ => none

end Steps

def Registered (numSources sourceId : Nat) : Prop :=
  sourceId < numSources ∧ sourceId < MAX_NUM_OF_HID_SOURCES

/-- The thread is in `k_event_wait`, and nothing posted lets it return. -/
def Blocked (s : CollectorWakeup) : Prop :=
  ∃ mask, s.collector.pc = .waiting mask ∧ s.collector.event &&& mask = 0#32

structure Safe (numSources : Nat) (s : CollectorWakeup) : Prop where
  filler : ∀ sourceId, s.collector.InFiller sourceId →
    Registered numSources sourceId ∧ s.sampled.getLsbD sourceId = true
  notified : ∀ sourceId, sourceId < MAX_NUM_OF_HID_SOURCES → s.awaited sourceId = true →
    s.collector.Noticed sourceId
  blocked : (∀ caller, s.calls caller = .idle) → s.Blocked →
    ∀ i, s.collector.event.getLsbD i = true → s.collector.enabledSources.getLsbD i = false

structure Inv (numSources : Nat) (s : CollectorWakeup) : Prop where
  loaded : s.loaded ≠ none → s.collector.pc = .start
  posted : ∀ i, s.collector.event.getLsbD i = true →
    Registered numSources i ∨ i = MAX_NUM_OF_HID_SOURCES
  waiting : ∀ mask, s.collector.pc = .waiting mask →
    mask = s.sampled ||| ENABLED_HID_SOURCES_CHANGED_EVENT_MASK
  fresh : ∀ mask, s.collector.pc = .waiting mask →
    s.collector.enabledSources = s.sampled ∨
      s.collector.event.getLsbD MAX_NUM_OF_HID_SOURCES = true ∨ ∃ caller, s.calls caller = .stored
  received : ∀ events, s.collector.pc = .received events → ∀ i, events.getLsbD i = true →
    s.collector.event.getLsbD i = true ∧
      (s.sampled.getLsbD i = true ∨ i = MAX_NUM_OF_HID_SOURCES)
  taken : ∀ i, s.collector.taken.getLsbD i = true →
    Registered numSources i ∧ s.sampled.getLsbD i = true
  filling : ∀ sourceId, s.collector.InFiller sourceId →
    Registered numSources sourceId ∧ s.sampled.getLsbD sourceId = true
  notified : ∀ sourceId, sourceId < MAX_NUM_OF_HID_SOURCES → s.awaited sourceId = true →
    s.collector.Noticed sourceId

variable {numSources : Nat} {s t : CollectorWakeup}

theorem inv_start : Inv numSources start where
  loaded := by simp [start]
  posted := by simp [start, Collector.reset]
  waiting := by simp [start, Collector.reset]
  fresh := by simp [start, Collector.reset]
  received := by simp [start, Collector.reset]
  taken := by simp [start, Collector.reset, Collector.taken]
  filling := by simp [start, Collector.reset, Collector.InFiller]
  notified := by simp [start]

theorem changed_bit_max :
    ENABLED_HID_SOURCES_CHANGED_EVENT_MASK.getLsbD MAX_NUM_OF_HID_SOURCES = true := by
  simp [ENABLED_HID_SOURCES_CHANGED_EVENT_MASK, MAX_NUM_OF_HID_SOURCES]

theorem changed_bit_iff {i : Nat} :
    ENABLED_HID_SOURCES_CHANGED_EVENT_MASK.getLsbD i = true ↔ i = MAX_NUM_OF_HID_SOURCES := by
  simp only [ENABLED_HID_SOURCES_CHANGED_EVENT_MASK, BitVec.getLsbD_twoPow, MAX_NUM_OF_HID_SOURCES]
  constructor
  · intro h
    simp only [Bool.and_eq_true, decide_eq_true_eq] at h
    omega
  · rintro rfl
    rfl

theorem getLsbD_and_zero {x y : BitVec 32} (h : x &&& y = 0#32) {i : Nat}
    (hx : x.getLsbD i = true) : y.getLsbD i = false := by
  have hbit : (x &&& y).getLsbD i = false := by rw [h, BitVec.getLsbD_zero]
  rw [BitVec.getLsbD_and, hx, Bool.true_and] at hbit
  exact hbit

/-- Without an unfinished call the mask the thread waits for is the current one. -/
theorem Inv.blocked (h : Inv numSources s) (idle : ∀ caller, s.calls caller = .idle)
    (hblocked : s.Blocked) {i : Nat} (hi : s.collector.event.getLsbD i = true) :
    s.collector.enabledSources.getLsbD i = false := by
  obtain ⟨mask, hpc, hnone⟩ := hblocked
  have hmask := h.waiting mask hpc
  have hbit := getLsbD_and_zero hnone hi
  rw [hmask, BitVec.getLsbD_or, Bool.or_eq_false_iff] at hbit
  rcases h.fresh mask hpc with hsame | hchanged | ⟨caller, hstored⟩
  · rw [hsame]
    exact hbit.1
  · have hmax := getLsbD_and_zero hnone hchanged
    rw [hmask, BitVec.getLsbD_or, changed_bit_max, Bool.or_true] at hmax
    cases hmax
  · rw [idle caller] at hstored
    cases hstored

theorem Inv.safe (h : Inv numSources s) : Safe numSources s :=
  ⟨h.filling, h.notified, fun idle hblocked _ hi => h.blocked idle hblocked hi⟩

/-- A call from elsewhere touches only what it posts and the enabled mask. -/
theorem Inv.of_posts (h : Inv numSources s) (hposts : Collector.Posts s.collector t.collector)
    (hloaded : t.loaded ≠ none → s.collector.pc = .start) (hsampled : t.sampled = s.sampled)
    (hposted : ∀ i, t.collector.event.getLsbD i = true →
      Registered numSources i ∨ i = MAX_NUM_OF_HID_SOURCES)
    (hfresh : ∀ mask, s.collector.pc = .waiting mask →
      t.collector.enabledSources = s.sampled ∨
        t.collector.event.getLsbD MAX_NUM_OF_HID_SOURCES = true ∨
        ∃ caller, t.calls caller = .stored)
    (hnotified : ∀ sourceId, sourceId < MAX_NUM_OF_HID_SOURCES → t.awaited sourceId = true →
      t.collector.Noticed sourceId) : Inv numSources t where
  loaded := fun hsome => hposts.pc.trans (hloaded hsome)
  posted := hposted
  waiting := by
    intro mask hpc
    rw [hsampled]
    exact h.waiting mask (hposts.pc.symm.trans hpc)
  fresh := by
    intro mask hpc
    rw [hsampled]
    exact hfresh mask (hposts.pc.symm.trans hpc)
  received := by
    intro events hpc i hi
    rw [hsampled]
    obtain ⟨hevent, hmask⟩ := h.received events (hposts.pc.symm.trans hpc) i hi
    exact ⟨hposts.event i hevent, hmask⟩
  taken := by
    intro i hi
    rw [hsampled]
    exact h.taken i (by rwa [← hposts.taken])
  filling := by
    intro sourceId hin
    rw [hsampled]
    exact h.filling sourceId (hposts.inFiller.mp hin)
  notified := hnotified

theorem inv_notify {sourceId : Nat} (h : Inv numSources s)
    (hstep : step numSources s (.notify sourceId) = some t) : Inv numSources t := by
  simp only [step] at hstep
  split at hstep
  next hregistered =>
    cases Option.some.inj hstep
    have hposts := Collector.notify_posts sourceId s.collector
    refine h.of_posts hposts h.loaded rfl ?_ ?_ ?_
    · intro i hi
      unfold hidCollectorNotifyDataAvailable at hi
      split at hi
      next => exact h.posted i hi
      next hrange =>
        simp only [kEventPost, BitVec.getLsbD_or, BitVec.getLsbD_twoPow, Bool.or_eq_true,
          Bool.and_eq_true, decide_eq_true_eq] at hi
        rcases hi with hposted | ⟨-, hi⟩
        · exact h.posted i hposted
        · exact Or.inl ⟨by omega, by omega⟩
    · intro mask hpc
      have hsame : (hidCollectorNotifyDataAvailable sourceId s.collector).enabledSources =
          s.collector.enabledSources := by
        unfold hidCollectorNotifyDataAvailable
        split
        next => rfl
        next => rfl
      refine (h.fresh mask hpc).imp hsame.trans ?_
      exact Or.imp_left (hposts.event _)
    · intro i hi hawaited
      by_cases hself : i = sourceId
      · exact Or.inl (hself ▸ Collector.notify_posted (hself ▸ hi) s.collector)
      · have hbefore : s.awaited i = true :=
          (Function.update_of_ne hself true s.awaited).symm.trans hawaited
        exact hposts.noticed (h.notified i hi hbefore)
  next => simp at hstep

theorem inv_setEnabled {caller : Nat} {sourceId : Int} {enabled : Bool} (h : Inv numSources s)
    (hstep : step numSources s (.setEnabled caller sourceId enabled) = some t) :
    Inv numSources t := by
  simp only [step] at hstep
  split at hstep
  next hidle =>
    split at hstep
    next =>
      cases Option.some.inj hstep
      exact h
    next =>
      cases Option.some.inj hstep
      refine h.of_posts ⟨rfl, rfl, fun _ hi => hi⟩ h.loaded rfl h.posted ?_ h.notified
      intro mask hpc
      refine (h.fresh mask hpc).imp_right (Or.imp_right ?_)
      rintro ⟨other, hstored⟩
      have hne : other ≠ caller := by
        rintro rfl
        rw [hidle] at hstored
        cases hstored
      exact ⟨other, (Function.update_of_ne hne _ _).trans hstored⟩
  next => simp at hstep

theorem inv_storeEnabled {caller : Nat} (h : Inv numSources s)
    (hstep : step numSources s (.storeEnabled caller) = some t) : Inv numSources t := by
  simp only [step] at hstep
  split at hstep
  next enabledSources sourceId enabled hloaded =>
    cases Option.some.inj hstep
    refine h.of_posts ⟨rfl, rfl, fun _ hi => hi⟩ h.loaded rfl h.posted ?_ h.notified
    intro mask hpc
    exact Or.inr (Or.inr ⟨caller, Function.update_self ..⟩)
  next => simp at hstep

theorem inv_postChanged {caller : Nat} (h : Inv numSources s)
    (hstep : step numSources s (.postChanged caller) = some t) : Inv numSources t := by
  simp only [step] at hstep
  split at hstep
  next hstored =>
    cases Option.some.inj hstep
    have hposts := Collector.notifySourcesChanged_posts s.collector
    have hchanged : (notifySourcesChanged s.collector).event.getLsbD MAX_NUM_OF_HID_SOURCES =
        true := by
      simp only [notifySourcesChanged, kEventPost, BitVec.getLsbD_or, changed_bit_max,
        Bool.or_true]
    refine h.of_posts hposts h.loaded rfl ?_ (fun _ _ => Or.inr (Or.inl hchanged))
      (fun i hi hawaited => hposts.noticed (h.notified i hi hawaited))
    intro i hi
    simp only [notifySourcesChanged, kEventPost, BitVec.getLsbD_or, Bool.or_eq_true] at hi
    rcases hi with hposted | hi
    · exact h.posted i hposted
    · exact Or.inr (changed_bit_iff.mp hi)
  next => simp at hstep

theorem awaitedAt_before {awaited : Nat → Bool} {pc : CollectorPc} {sourceId : Nat}
    (h : awaitedAt awaited pc sourceId = true) :
    awaited sourceId = true ∧ ∀ events, pc ≠ .filling sourceId events := by
  cases pc with
  | filling filled rest =>
    simp only [awaitedAt] at h
    by_cases hself : sourceId = filled
    · rw [hself, Function.update_self] at h
      cases h
    · rw [Function.update_of_ne hself] at h
      refine ⟨h, ?_⟩
      rintro events hpc
      cases hpc
      exact hself rfl
  | start | sampling | waiting | received | serving | sinking =>
    exact ⟨h, fun events hpc => by cases hpc⟩

theorem Inv.notified_of_thread {c : Collector} (h : Inv numSources s)
    (hstep : Collector.ThreadStep numSources s.collector c) {sourceId : Nat}
    (hid : sourceId < MAX_NUM_OF_HID_SOURCES)
    (hawaited : (s.afterThread c).awaited sourceId = true) : c.Noticed sourceId := by
  obtain ⟨hbefore, hfiller⟩ := awaitedAt_before hawaited
  have hnoticed := hstep.noticed hid (h.notified sourceId hid hbefore)
  refine hnoticed.resolve_right ?_
  rintro ⟨events, hpc⟩
  exact hfiller events hpc

theorem getLsbD_kEventSetMasked {mask posted : BitVec 32} {i : Nat}
    (hi : (kEventSetMasked 0#32 mask posted).getLsbD i = true) : posted.getLsbD i = true := by
  simp only [kEventSetMasked, BitVec.getLsbD_or, BitVec.getLsbD_and, BitVec.getLsbD_zero,
    Bool.false_and, Bool.or_false, Bool.and_eq_true] at hi
  exact hi.1

/-- The thread clears events and never posts one. -/
theorem posted_of_thread {c d : Collector} (hstep : Collector.ThreadStep numSources c d) {i : Nat}
    (hi : d.event.getLsbD i = true) : c.event.getLsbD i = true := by
  cases hstep with
  | restart | take => exact getLsbD_kEventSetMasked hi
  | start | sample | receive | fill | sink | clear => exact hi

theorem afterThread_sampled {c : Collector} (h : s.collector.pc ≠ .sampling) :
    (s.afterThread c).sampled = s.sampled :=
  if_neg h

/-- What a thread step has to keep of the events it holds. -/
structure Holds (numSources : Nat) (sampled : BitVec 32) (c : Collector) : Prop where
  waiting : ∀ mask, c.pc = .waiting mask →
    mask = sampled ||| ENABLED_HID_SOURCES_CHANGED_EVENT_MASK ∧ c.enabledSources = sampled
  received : ∀ events, c.pc = .received events → ∀ i, events.getLsbD i = true →
    c.event.getLsbD i = true ∧ (sampled.getLsbD i = true ∨ i = MAX_NUM_OF_HID_SOURCES)
  taken : ∀ i, c.taken.getLsbD i = true →
    Registered numSources i ∧ sampled.getLsbD i = true
  filling : ∀ sourceId, c.InFiller sourceId →
    Registered numSources sourceId ∧ sampled.getLsbD sourceId = true

theorem Holds.of_idle {sampled : BitVec 32} {c : Collector}
    (h : c.pc = .sampling ∨ c.pc = .sinking) : Holds numSources sampled c := by
  refine ⟨?_, ?_, ?_, ?_⟩
  · intro mask hpc
    rcases h with h | h <;> simp [h] at hpc
  · intro events hpc
    rcases h with h | h <;> simp [h] at hpc
  · intro i hi
    rcases h with h | h <;> simp [Collector.taken, h] at hi
  · rintro sourceId ⟨events, hpc⟩
    rcases h with h | h <;> simp [h] at hpc

theorem holds_sample (c : Collector) :
    Holds numSources c.enabledSources { c with
      pc := .waiting (c.enabledSources ||| ENABLED_HID_SOURCES_CHANGED_EVENT_MASK) } := by
  refine ⟨?_, ?_, ?_, ?_⟩
  · intro mask hpc
    cases hpc
    exact ⟨rfl, rfl⟩
  · intro events hpc
    cases hpc
  · intro i hi
    simp [Collector.taken] at hi
  · rintro sourceId ⟨events, hpc⟩
    cases hpc

theorem Inv.holds_receive (h : Inv numSources s) {mask : BitVec 32}
    (hpc : s.collector.pc = .waiting mask) :
    Holds numSources s.sampled { s.collector with
      pc := .received (s.collector.event &&& mask) } := by
  refine ⟨?_, ?_, ?_, ?_⟩
  · intro mask hpc
    cases hpc
  · intro events hpc' i hi
    cases hpc'
    rw [h.waiting mask hpc] at hi
    simp only [BitVec.getLsbD_and, BitVec.getLsbD_or, Bool.and_eq_true, Bool.or_eq_true,
      changed_bit_iff] at hi
    exact hi
  · intro i hi
    simp [Collector.taken] at hi
  · rintro sourceId ⟨events, hpc⟩
    cases hpc

theorem Inv.holds_take (h : Inv numSources s) {events event : BitVec 32}
    (hpc : s.collector.pc = .received events)
    (hsame : events &&& ENABLED_HID_SOURCES_CHANGED_EVENT_MASK = 0#32) :
    Holds numSources s.sampled { s.collector with event := event, pc := .serving events } := by
  refine ⟨?_, ?_, ?_, ?_⟩
  · intro mask hpc
    cases hpc
  · intro events hpc
    cases hpc
  · intro i hi
    obtain ⟨hevent, hsampled⟩ := h.received events hpc i hi
    have hne : i ≠ MAX_NUM_OF_HID_SOURCES := by
      rintro rfl
      have hbit := getLsbD_and_zero hsame hi
      rw [changed_bit_max] at hbit
      cases hbit
    exact ⟨(h.posted i hevent).resolve_right hne, hsampled.resolve_right hne⟩
  · rintro sourceId ⟨events, hpc⟩
    cases hpc

theorem Inv.holds_fill (h : Inv numSources s) {events : BitVec 32}
    (hpc : s.collector.pc = .serving events) (hsome : events ≠ 0#32) :
    Holds numSources s.sampled { s.collector with
      pc := .filling (getNextBitPos events).1 (getNextBitPos events).2 } := by
  have htaken : ∀ i, events.getLsbD i = true →
      Registered numSources i ∧ s.sampled.getLsbD i = true := by
    intro i hi
    exact h.taken i (by simpa only [Collector.taken, hpc] using hi)
  refine ⟨?_, ?_, ?_, ?_⟩
  · intro mask hpc
    cases hpc
  · intro events hpc
    cases hpc
  · intro i hi
    have hrest : (getNextBitPos events).2.getLsbD i = true := hi
    rw [getNextBitPos_rest events (BitVec.lt_of_getLsbD hrest)] at hrest
    split at hrest
    next => cases hrest
    next => exact htaken i hrest
  · rintro sourceId ⟨rest, hin⟩
    cases hin
    exact htaken _ (getNextBitPos_set hsome)

theorem Inv.holds_thread {c : Collector} (h : Inv numSources s)
    (hstep : Collector.ThreadStep numSources s.collector c) :
    Holds numSources (s.afterThread c).sampled c := by
  cases hstep with
  | start | restart | sink | clear => exact Holds.of_idle (by simp)
  | sample hpc =>
    have hsampled : ∀ c, (s.afterThread c).sampled = s.collector.enabledSources :=
      fun _ => if_pos hpc
    rw [hsampled]
    exact holds_sample s.collector
  | receive mask hpc _ =>
    rw [afterThread_sampled (by rw [hpc]; simp)]
    exact h.holds_receive hpc
  | take events hpc hsame =>
    rw [afterThread_sampled (by rw [hpc]; simp)]
    exact h.holds_take hpc hsame
  | fill events hpc hsome =>
    rw [afterThread_sampled (by rw [hpc]; simp)]
    exact h.holds_fill hpc hsome

theorem inv_afterThread {c : Collector} (h : Inv numSources s) (hloaded : s.loaded = none)
    (hstep : Collector.ThreadStep numSources s.collector c) :
    Inv numSources (s.afterThread c) where
  loaded := fun hsome => absurd hloaded hsome
  posted := fun i hi => h.posted i (posted_of_thread hstep hi)
  waiting := fun mask hpc => ((h.holds_thread hstep).waiting mask hpc).1
  fresh := fun mask hpc => Or.inl ((h.holds_thread hstep).waiting mask hpc).2
  received := (h.holds_thread hstep).received
  taken := (h.holds_thread hstep).taken
  filling := (h.holds_thread hstep).filling
  notified := fun _ hid hawaited => h.notified_of_thread hstep hid hawaited

theorem Inv.seen (h : Inv numSources s) : Inv numSources s.seen := by
  refine h.of_posts ⟨rfl, rfl, fun _ hi => hi⟩ (fun hsome => absurd rfl hsome) rfl h.posted ?_
    h.notified
  intro mask hpc
  have hnone : s.loaded = none := by
    by_contra hsome
    have hstart := h.loaded hsome
    rw [hpc] at hstart
    cases hstart
  have hsame : s.seen.collector.enabledSources = s.collector.enabledSources := by
    simp [CollectorWakeup.seen, hnone]
  rw [hsame]
  exact h.fresh mask hpc

theorem inv_thread (h : Inv numSources s) (hstep : threadStep numSources s = some t) :
    Inv numSources t := by
  unfold threadStep at hstep
  split at hstep
  next hstart =>
    cases Option.some.inj hstep
    exact h.of_posts ⟨rfl, rfl, fun _ hi => hi⟩ (fun _ => hstart.1) rfl h.posted h.fresh h.notified
  next =>
    obtain ⟨c, hc, rfl⟩ := Option.map_eq_some_iff.mp hstep
    exact inv_afterThread h.seen rfl (Collector.threadStep_of_step hc)

theorem inv_filler {report : HidReport} (h : Inv numSources s)
    (hstep : step numSources s (.filler report) = some t) : Inv numSources t := by
  simp only [step] at hstep
  split at hstep
  next sourceId events hpc =>
    cases Option.some.inj hstep
    have hfilled : ({ s.collector with report := report } : Collector).filled =
        { s.collector with report := report, pc := .serving events } :=
      Collector.filled_of_pc (c := { s.collector with report := report }) hpc
    have htaken : s.collector.taken = events := by rw [Collector.taken, hpc]
    rw [hfilled]
    refine ⟨?_, h.posted, ?_, ?_, ?_, ?_, ?_, ?_⟩
    · intro hsome
      have hstart := h.loaded hsome
      rw [hpc] at hstart
      cases hstart
    · intro mask hpc
      cases hpc
    · intro mask hpc
      cases hpc
    · intro events hpc
      cases hpc
    · intro i hi
      exact h.taken i (by rw [htaken]; exact hi)
    · rintro sourceId ⟨events, hpc⟩
      cases hpc
    · intro i hid hawaited
      refine (h.notified i hid hawaited).imp_right ?_
      intro hi
      rwa [htaken] at hi
  next => simp at hstep

theorem inv_step {a : WakeupStep} (h : Inv numSources s) (hstep : step numSources s a = some t) :
    Inv numSources t := by
  cases a with
  | thread => exact inv_thread h hstep
  | filler report => exact inv_filler h hstep
  | notify sourceId => exact inv_notify h hstep
  | setEnabled caller sourceId enabled => exact inv_setEnabled h hstep
  | storeEnabled caller => exact inv_storeEnabled h hstep
  | postChanged caller => exact inv_postChanged h hstep

/-- The wake-up protocol of the collector in every state of every run: which fillers it calls,
that it forgets no notification, and that it does not sleep while an enabled source has one. -/
theorem wakeup_safe {trace : List (CollectorWakeup × WakeupStep)}
    (run : Run (step numSources) start trace s) : AllStates (Safe numSources) trace s := by
  have allowed : AllSteps (fun _ _ => True) trace := fun _ _ => trivial
  have invariant := run.invariant allowed inv_start (fun _ _ _ hs _ hstep => inv_step hs hstep)
  exact invariant.imp (fun _ hs => hs.safe)

/-- Source 1 is switched off while the thread waits, and its notification comes before the
change is posted. -/
def switchedOff : List WakeupStep :=
  [.thread, .thread, .thread, .setEnabled 0 1 false, .storeEnabled 0, .notify 1, .thread,
    .postChanged 0, .thread, .thread, .filler .zero, .notify 0, .thread, .thread, .thread, .thread,
    .thread, .thread, .thread, .thread, .thread]

theorem wakeup_safe_switchedOff :
    ∃ (trace : List (CollectorWakeup × WakeupStep)) (s : CollectorWakeup),
      Run (step 2) start trace s ∧ trace.map Prod.snd = switchedOff.reverse ∧
      AllStates (Safe 2) trace s := by
  obtain ⟨trace, s, run, labels, -⟩ := exists_run_of_replay (p := fun _ => true)
    (show (replay (step 2) start switchedOff).any _ = true by decide +kernel)
  exact ⟨trace, s, run, labels, wakeup_safe run⟩

end CollectorWakeup

end MyMouse
