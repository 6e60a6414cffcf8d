import MyMouse.Communicator
import Mathlib.Algebra.Ring.Nat

namespace MyMouse

section Switch

variable {δ ε : Type} {timeout elapsed : Nat} {poll : Poll δ ε} {polls gap : List (Poll δ ε)}
  {desired mode : Mode} {host : Host δ ε} {self after : Device δ}

/-- The poll gets a list with one device of ours, which is in this mode and can be opened. -/
def Poll.Sees (poll : Poll δ ε) (mode : Mode) : Prop :=
  ∃ deviceList, poll.deviceList = .ok deviceList ∧ ListsOnly deviceList mode ∧
    ∀ info ∈ deviceList, ∃ device, poll.openDevice info = .ok device

def Poll.SeesNone (poll : Poll δ ε) : Prop :=
  ∃ deviceList, poll.deviceList = .ok deviceList ∧ ListsNone deviceList

/-- The time these polls take, with the sleep after each of them. -/
def pollTime (polls : List (Poll δ ε)) : Nat :=
  (polls.map (fun poll => poll.spent + REFRESH_INTERVAL)).sum

/-- The device makes the switch: after the command the polls see its old mode for a while, then
no device, and before the timeout its new mode. -/
structure Host.Switches (host : Host δ ε) (desired : Mode) (device : Device δ) : Prop where
  entered : host.write device.communicator.device (enterReport desired) = .ok ()
  timeline : ∃ old gap arrival rest, host.polls = old ++ gap ++ arrival :: rest ∧
    (∀ poll ∈ old, poll.Sees desired.other) ∧ (∀ poll ∈ gap, poll.SeesNone) ∧
    arrival.Sees desired ∧ pollTime (old ++ gap) ≤ 5000 + REFRESH_INTERVAL

def CommunicationError.OfSearch : CommunicationError ε → Prop
  | .enumerate _ | .openDevice _ | .deviceReSearchTimeout => True
  | .write _ | .tooManyDevices _ | .stillIn _ => False

theorem Mode.other_ne (mode : Mode) : mode.other ≠ mode := by
  cases mode with
  | app => exact Mode.noConfusion
  | bootloader => exact Mode.noConfusion

theorem listsOnly_singleton {info : DeviceInfo}
    (h : CommunicatorBuilder.fromDevInfo info = some ⟨info, mode⟩) : ListsOnly [info] mode := by
  refine ⟨⟨info, List.mem_cons_self .., h⟩, ?_, ?_⟩
  · intro info' hmem builder hbuilder
    cases List.mem_singleton.mp hmem
    rw [h] at hbuilder
    cases hbuilder
    rfl
  · intro info' hmem info'' hmem' _ _
    rw [List.mem_singleton.mp hmem, List.mem_singleton.mp hmem']

theorem pollForComm_sees (h : poll.Sees mode) (timeout elapsed : Nat) (polls : List (Poll δ ε)) :
    ∃ device, pollForComm timeout elapsed (poll :: polls) = some (.ok ⟨mode, device⟩) := by
  obtain ⟨deviceList, hlist, honly, hopen⟩ := h
  obtain ⟨info, hmem, hfind⟩ := findCommunicator_listsOnly (ε := ε) honly
  obtain ⟨device, hdevice⟩ := hopen info hmem
  refine ⟨device, ?_⟩
  simp only [pollForComm, hlist, hfind, CommunicatorBuilder.build, hdevice]

theorem pollForComm_seesNone (h : poll.SeesNone) (hintime : elapsed + poll.spent ≤ timeout)
    (polls : List (Poll δ ε)) :
    pollForComm timeout elapsed (poll :: polls) =
      pollForComm timeout (elapsed + poll.spent + REFRESH_INTERVAL) polls := by
  obtain ⟨deviceList, hlist, hnone⟩ := h
  simp only [pollForComm, hlist, findCommunicator_listsNone hnone]
  exact if_neg (by omega)

theorem pollForComm_gap (hgap : ∀ poll ∈ gap, poll.SeesNone)
    (hintime : elapsed + pollTime gap ≤ timeout + REFRESH_INTERVAL) :
    pollForComm timeout elapsed (gap ++ polls) =
      pollForComm timeout (elapsed + pollTime gap) polls := by
  induction gap generalizing elapsed with
  | nil => rfl
  | cons poll gap ih =>
    have htime : pollTime (poll :: gap) = poll.spent + REFRESH_INTERVAL + pollTime gap := rfl
    have hnone := hgap poll (List.mem_cons_self ..)
    have hgap' : ∀ poll ∈ gap, poll.SeesNone :=
      fun p hp => hgap p (List.mem_cons_of_mem _ hp)
    rw [htime] at hintime ⊢
    rw [List.cons_append, pollForComm_seesNone hnone (by omega), ih hgap' (by omega)]
    congr 1
    omega

/-- The search is over once the polls have slept longer than the timeout. -/
theorem pollForComm_returns (h : timeout < elapsed + polls.length * REFRESH_INTERVAL) :
    (pollForComm timeout elapsed (poll :: polls)).isSome = true := by
  induction polls generalizing elapsed poll with
  | nil =>
    unfold pollForComm
    split
    next => rfl
    next =>
      split
      next => rfl
      next => rfl
      next =>
        have hover : elapsed + poll.spent > timeout := by
          simp only [List.length_nil] at h
          omega
        rw [if_pos hover]
        rfl
  | cons next polls ih =>
    unfold pollForComm
    split
    next => rfl
    next =>
      split
      next => rfl
      next => rfl
      next =>
        split
        next => rfl
        next =>
          apply ih
          rw [List.length_cons, Nat.succ_mul] at h
          omega

theorem communicatorGetter_same (h : self.communicator.mode = desired) :
    communicatorGetter desired host self = some (.ok self.communicator.device, self) :=
  if_pos h

theorem communicatorGetter_found {communicator : DeviceCommunicator δ}
    (h : self.communicator.mode ≠ desired)
    (hentered : host.write self.communicator.device (enterReport desired) = .ok ())
    (hfound : waitForComm 5000 host.polls = some (.ok communicator)) :
    communicatorGetter desired host self =
      if communicator.mode = desired then some (.ok communicator.device, ⟨communicator⟩)
      else some (.error (.stillIn communicator.mode), ⟨communicator⟩) := by
  unfold communicatorGetter
  rw [if_neg h]
  simp only [hentered, hfound]

theorem communicatorGetter_returns (hpolls : 51 < host.polls.length) :
    (communicatorGetter desired host self).isSome = true := by
  obtain ⟨result, hresult⟩ : ∃ result, waitForComm 5000 host.polls = some result := by
    cases hlist : host.polls with
    | nil =>
      rw [hlist, List.length_nil] at hpolls
      omega
    | cons poll polls =>
      rw [hlist, List.length_cons] at hpolls
      have hlong : 5000 < 0 + polls.length * REFRESH_INTERVAL := by
        unfold REFRESH_INTERVAL
        omega
      exact Option.isSome_iff_exists.mp (pollForComm_returns hlong)
  unfold communicatorGetter
  split
  next => rfl
  next =>
    split
    next => rfl
    next =>
      rw [hresult]
      cases result with
      | error err => rfl
      | ok communicator =>
        simp only
        split
        next => rfl
        next => rfl

/-- A call that fails keeps its communicator, unless the device it found is of the old mode. -/
theorem communicatorGetter_error {err : CommunicationError ε}
    (h : communicatorGetter desired host self = some (.error err, after)) :
    after = self ∨ ∃ mode, err = .stillIn mode := by
  unfold communicatorGetter at h
  split at h
  next => cases h
  next =>
    split at h
    next =>
      cases h
      exact Or.inl rfl
    next =>
      split at h
      next => cases h
      next =>
        cases h
        exact Or.inl rfl
      next communicator hfound =>
        split at h
        next => cases h
        next =>
          cases h
          exact Or.inr ⟨communicator.mode, rfl⟩

theorem Host.Switches.finds (h : host.Switches desired self)
    (hfirst : ∀ poll ∈ host.polls.head?, ¬ poll.Sees desired.other) :
    ∃ device, waitForComm 5000 host.polls = some (.ok ⟨desired, device⟩) := by
  obtain ⟨old, gap, arrival, rest, hpolls, hold, hgap, harrival, hintime⟩ := h.timeline
  cases old with
  | nil =>
    obtain ⟨device, hdevice⟩ :=
      pollForComm_sees harrival 5000 (0 + pollTime gap) rest
    refine ⟨device, ?_⟩
    rw [List.nil_append] at hpolls hintime
    rw [waitForComm, hpolls, pollForComm_gap hgap (by omega), hdevice]
  | cons first old =>
    refine absurd (hold first (List.mem_cons_self ..)) (hfirst first ?_)
    rw [hpolls]
    rfl

/-- When the device makes the switch, a call gets a communicator of the desired mode exactly
if the first poll does not see the old mode any more. -/
theorem communicatorGetter_iff (desired : Mode) (host : Host δ ε) (self : Device δ) :
    ((host.Switches desired self → ∃ device,
        communicatorGetter desired host self = some (.ok device, ⟨⟨desired, device⟩⟩)) ∧
      ∀ err after, communicatorGetter desired host self = some (.error err, after) →
        err.OfSearch → after = self) ↔
      (host.Switches desired self → self.communicator.mode = desired ∨
        ∀ poll ∈ host.polls.head?, ¬ poll.Sees desired.other) := by
  constructor
  · rintro ⟨hok, -⟩ hswitches
    obtain ⟨device, hgot⟩ := hok hswitches
    by_cases hmode : self.communicator.mode = desired
    · exact Or.inl hmode
    · refine Or.inr fun poll hpoll hsees => ?_
      obtain ⟨polls, hpolls⟩ := List.head?_eq_some_iff.mp hpoll
      obtain ⟨stale, hstale⟩ := pollForComm_sees hsees 5000 0 polls
      rw [← hpolls] at hstale
      rw [communicatorGetter_found hmode hswitches.entered hstale,
        if_neg (Mode.other_ne desired)] at hgot
      cases hgot
  · intro hfirst
    refine ⟨fun hswitches => ?_, fun err after herror hsearch => ?_⟩
    · by_cases hmode : self.communicator.mode = desired
      · refine ⟨self.communicator.device, ?_⟩
        rw [communicatorGetter_same hmode, ← hmode]
      · obtain ⟨device, hfound⟩ :=
          hswitches.finds ((hfirst hswitches).resolve_left hmode)
        refine ⟨device, ?_⟩
        rw [communicatorGetter_found hmode hswitches.entered hfound]
        exact if_pos rfl
    · rcases communicatorGetter_error herror with hsame | ⟨mode, rfl⟩
      · exact hsame
      · exact hsearch.elim

end Switch

def appInfo : DeviceInfo := ⟨VENDOR_ID, PRODUCT_ID_APP, "/dev/hidraw3"⟩

def bootloaderInfo : DeviceInfo := ⟨VENDOR_ID, PRODUCT_ID_BOOTLOADER, "/dev/hidraw4"⟩

/-- A poll of this list that can open every device of it. -/
def openingPoll (deviceList : List DeviceInfo) : Poll String String :=
  { deviceList := .ok deviceList, openDevice := fun info => .ok info.path, spent := 3 }

/-- The bootloader is gone when the device list is read first. -/
example :
    appCommunicator
        { write := fun _ _ => .ok ()
          polls := [openingPoll [], openingPoll [], openingPoll [appInfo]] }
        ⟨⟨.bootloader, "before"⟩⟩ =
      some (.ok "/dev/hidraw3", ⟨⟨.app, "/dev/hidraw3"⟩⟩) := by
  decide

/-- The application is still attached when the device list is read first. -/
def heldOver : Host String String :=
  { write := fun _ _ => .ok ()
    polls := [openingPoll [appInfo], openingPoll [], openingPoll [bootloaderInfo]] }

theorem switch_missed_heldOver :
    heldOver.Switches .bootloader ⟨⟨.app, "before"⟩⟩ ∧
      bootloaderCommunicator heldOver ⟨⟨.app, "before"⟩⟩ =
        some (.error (.stillIn .app), ⟨⟨.app, "/dev/hidraw3"⟩⟩) ∧
      ¬ ∃ device, bootloaderCommunicator heldOver ⟨⟨.app, "before"⟩⟩ =
        some (.ok device, ⟨⟨.bootloader, device⟩⟩) := by
  have hcall : bootloaderCommunicator heldOver ⟨⟨.app, "before"⟩⟩ =
      some (.error (.stillIn .app), ⟨⟨.app, "/dev/hidraw3"⟩⟩) := by decide
  have hopens : ∀ deviceList, ∀ info ∈ deviceList,
      ∃ device, (openingPoll deviceList).openDevice info = .ok device :=
    fun _ info _ => ⟨info.path, rfl⟩
  refine ⟨⟨rfl, [openingPoll [appInfo]], [openingPoll []], openingPoll [bootloaderInfo], [], rfl,
    ?_, ?_, ?_, by decide⟩, hcall, ?_⟩
  · intro poll hpoll
    rw [List.mem_singleton.mp hpoll]
    exact ⟨_, rfl, listsOnly_singleton (by decide), hopens _⟩
  · intro poll hpoll
    rw [List.mem_singleton.mp hpoll]
    exact ⟨_, rfl, fun _ hmem => nomatch hmem⟩
  · exact ⟨_, rfl, listsOnly_singleton (by decide), hopens _⟩
  · rintro ⟨device, hok⟩
    rw [hcall] at hok
    cases hok

end MyMouse
