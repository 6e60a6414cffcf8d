import Mathlib.Data.List.Basic

namespace MyMouse

inductive Mode
  | app
  | bootloader
  deriving DecidableEq

def Mode.other : Mode → Mode
  | .app => .bootloader
  | .bootloader => .app

/-- `hidapi::DeviceInfo`. -/
structure DeviceInfo where
  vendorId : BitVec 16
  productId : BitVec 16
  path : String
  deriving DecidableEq

def VENDOR_ID : BitVec 16 := 0x03EB#16
def PRODUCT_ID_APP : BitVec 16 := 0x2041#16
def PRODUCT_ID_BOOTLOADER : BitVec 16 := 0x2067#16

/-- A device to open, and the communicator to make of it. -/
structure CommunicatorBuilder where
  devInfo : DeviceInfo
  mode : Mode
  deriving DecidableEq

def CommunicatorBuilder.fromDevInfo (devInfo : DeviceInfo) : Option CommunicatorBuilder :=
  if devInfo.vendorId = VENDOR_ID ∧ devInfo.productId = PRODUCT_ID_APP then some ⟨devInfo, .app⟩
  else if devInfo.vendorId = VENDOR_ID ∧ devInfo.productId = PRODUCT_ID_BOOTLOADER then
    some ⟨devInfo, .bootloader⟩
  else none

/-- What a call of a communicator fails with, `ε` being the errors of hidapi. -/
inductive CommunicationError (ε : Type)
  | write (err : ε)
  | enumerate (err : ε)
  | tooManyDevices (devices : List CommunicatorBuilder)
  | openDevice (err : ε)
  | deviceReSearchTimeout
  | stillIn (mode : Mode)
  deriving DecidableEq

/-- The two variants of the enumeration hold the same kind of device. -/
structure DeviceCommunicator (δ : Type) where
  mode : Mode
  device : δ
  deriving DecidableEq

structure Device (δ : Type) where
  communicator : DeviceCommunicator δ
  deriving DecidableEq

/-- One turn of the loop of `wait_for_comm`: the device list it works on, what opening a
device of it gives, and the time until the timeout is checked, in milliseconds. -/
structure Poll (δ ε : Type) where
  deviceList : Except ε (List DeviceInfo)
  openDevice : DeviceInfo → Except ε δ
  spent : Nat

/-- The devices as a set, where the first entry of a path stays. -/
def findCommunicator {ε : Type} (deviceList : List DeviceInfo) :
    Except (CommunicationError ε) (Option CommunicatorBuilder) :=
  let devices := (deviceList.filterMap CommunicatorBuilder.fromDevInfo).eraseDupsBy
    (fun a b => a.devInfo.path == b.devInfo.path)
  if devices.length > 1 then .error (.tooManyDevices devices) else .ok devices.head?

def REFRESH_INTERVAL : Nat := 100

section Search

variable {δ ε : Type}

def CommunicatorBuilder.build (builder : CommunicatorBuilder) (poll : Poll δ ε) :
    Except (CommunicationError ε) (DeviceCommunicator δ) :=
  match poll.openDevice builder.devInfo with
  | .ok device => .ok ⟨builder.mode, device⟩
  | .error err => .error (.openDevice err)

/-- The loop of `wait_for_comm` when `elapsed` milliseconds have passed; `none` while it is
still polling. -/
def pollForComm (timeout : Nat) : Nat → List (Poll δ ε) →
    Option (Except (CommunicationError ε) (DeviceCommunicator δ))
  | _, [] => none
  | elapsed, poll :: polls =>
    match poll.deviceList with
    | .error err => some (.error (.enumerate err))
    | .ok deviceList =>
      match findCommunicator deviceList with
      | .error err => some (.error err)
      | .ok (some builder) => some (builder.build poll)
      | .ok none =>
        if elapsed + poll.spent > timeout then some (.error .deviceReSearchTimeout)
        else pollForComm timeout (elapsed + poll.spent + REFRESH_INTERVAL) polls

def waitForComm (timeout : Nat) (polls : List (Poll δ ε)) :
    Option (Except (CommunicationError ε) (DeviceCommunicator δ)) :=
  pollForComm timeout 0 polls

/-- The report of `enter_app` and of `enter_bootloader`. -/
def enterReport : Mode → List (BitVec 8)
  | .app => [0x00#8, 0xFF#8, 0xFF#8]
  | .bootloader => [0x08#8, 0x42#8]

/-- What a call finds outside: the result of a write to the device, and the polls. -/
structure Host (δ ε : Type) where
  write : δ → List (BitVec 8) → Except ε Unit
  polls : List (Poll δ ε)

/-- The getters `impl_communicator_getter` makes, with the device after the call. -/
def communicatorGetter (desired : Mode) (host : Host δ ε) (self : Device δ) :
    Option (Except (CommunicationError ε) δ × Device δ) :=
  if self.communicator.mode = desired then some (.ok self.communicator.device, self)
  else
    match host.write self.communicator.device (enterReport desired) with
    | .error err => some (.error (.write err), self)
    | .ok _ =>
      match waitForComm 5000 host.polls with
      | none => none
      | some (.error err) => some (.error err, self)
      | some (.ok communicator) =>
        if communicator.mode = desired then some (.ok communicator.device, ⟨communicator⟩)
        else some (.error (.stillIn communicator.mode), ⟨communicator⟩)

def appCommunicator (host : Host δ ε) (self : Device δ) :
    Option (Except (CommunicationError ε) δ × Device δ) :=
  communicatorGetter .app host self

def bootloaderCommunicator (host : Host δ ε) (self : Device δ) :
    Option (Except (CommunicationError ε) δ × Device δ) :=
  communicatorGetter .bootloader host self

end Search

/-- The device list shows one device of ours, which is in this mode. -/
structure ListsOnly (deviceList : List DeviceInfo) (mode : Mode) : Prop where
  listed : ∃ info ∈ deviceList, CommunicatorBuilder.fromDevInfo info = some ⟨info, mode⟩
  mode_eq : ∀ info ∈ deviceList, ∀ builder, CommunicatorBuilder.fromDevInfo info = some builder →
    builder.mode = mode
  path_eq : ∀ info ∈ deviceList, ∀ info' ∈ deviceList,
    (CommunicatorBuilder.fromDevInfo info).isSome → (CommunicatorBuilder.fromDevInfo info').isSome →
      info.path = info'.path

def ListsNone (deviceList : List DeviceInfo) : Prop :=
  ∀ info ∈ deviceList, CommunicatorBuilder.fromDevInfo info = none

theorem fromDevInfo_devInfo {info : DeviceInfo} {builder : CommunicatorBuilder}
    (h : CommunicatorBuilder.fromDevInfo info = some builder) : builder.devInfo = info := by
  unfold CommunicatorBuilder.fromDevInfo at h
  split at h
  next =>
    cases h
    rfl
  next =>
    split at h
    next =>
      cases h
      rfl
    next => cases h

/-- A list whose entries are all alike is one entry as a set. -/
theorem eraseDupsBy_eq_singleton {α : Type} {r : α → α → Bool} {a : α} {as : List α}
    (h : ∀ b ∈ as, r b a = true) : (a :: as).eraseDupsBy r = [a] := by
  have hrest : as.filter (fun b => r b a = false) = [] := by
    rw [List.filter_eq_nil_iff]
    intro b hb
    simp [h b hb]
  rw [List.eraseDupsBy_cons, hrest]
  rfl

theorem findCommunicator_listsNone {ε : Type} {deviceList : List DeviceInfo}
    (h : ListsNone deviceList) : findCommunicator (ε := ε) deviceList = .ok none := by
  have hnone : deviceList.filterMap CommunicatorBuilder.fromDevInfo = [] :=
    List.filterMap_eq_nil_iff.mpr h
  unfold findCommunicator
  rw [hnone]
  rfl

theorem findCommunicator_listsOnly {ε : Type} {deviceList : List DeviceInfo} {mode : Mode}
    (h : ListsOnly deviceList mode) :
    ∃ info ∈ deviceList, findCommunicator (ε := ε) deviceList = .ok (some ⟨info, mode⟩) := by
  have hmem : ∀ builder ∈ deviceList.filterMap CommunicatorBuilder.fromDevInfo,
      builder.devInfo ∈ deviceList ∧
        CommunicatorBuilder.fromDevInfo builder.devInfo = some builder := by
    intro builder hbuilder
    obtain ⟨info, hinfo, hfrom⟩ := List.mem_filterMap.mp hbuilder
    rw [fromDevInfo_devInfo hfrom]
    exact ⟨hinfo, hfrom⟩
  cases hbuilders : deviceList.filterMap CommunicatorBuilder.fromDevInfo with
  | nil =>
    obtain ⟨info, hinfo, hfrom⟩ := h.listed
    have hnone := List.filterMap_eq_nil_iff.mp hbuilders info hinfo
    rw [hfrom] at hnone
    cases hnone
  | cons first others =>
    rw [hbuilders] at hmem
    obtain ⟨hfirst, hfromFirst⟩ := hmem first (List.mem_cons_self ..)
    have hsame : ∀ builder ∈ others,
        (builder.devInfo.path == first.devInfo.path) = true := by
      intro builder hbuilder
      obtain ⟨hinfo, hfrom⟩ := hmem builder (List.mem_cons_of_mem _ hbuilder)
      rw [beq_iff_eq]
      exact h.path_eq _ hinfo _ hfirst (by rw [hfrom]; rfl) (by rw [hfromFirst]; rfl)
    refine ⟨first.devInfo, hfirst, ?_⟩
    unfold findCommunicator
    rw [hbuilders, eraseDupsBy_eq_singleton hsame, ← h.mode_eq _ hfirst first hfromFirst]
    rfl

end MyMouse
