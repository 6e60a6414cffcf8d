import MyMouse.AvrSpi
import MyMouse.Run

namespace MyMouse

open Runs

/-- What `CALLBACK_USB_GetDescriptor` may point the host to. -/
inductive DescrAddress
  | null
  | deviceDescriptor
  | configurationDescriptor
  | languageString
  | manufacturerString
  | productString
  | hidMouseHid
  | hidReportDesc
  deriving DecidableEq

inductive MemSpace
  | flash
  | ram
  deriving DecidableEq

/-- The sizes LUFA's types and macros give the other descriptors. -/
structure DescriptorSizes where
  device : Nat
  configuration : Nat
  hid : Nat
  language : Nat
  manufacturer : Nat
  product : Nat

def DTYPE_Device : BitVec 8 := 0x01#8
def DTYPE_Configuration : BitVec 8 := 0x02#8
def DTYPE_String : BitVec 8 := 0x03#8
def HID_DTYPE_HID : BitVec 8 := 0x21#8
def HID_DTYPE_Report : BitVec 8 := 0x22#8

def STRING_ID_Language : BitVec 8 := 0#8
def STRING_ID_Manufacturer : BitVec 8 := 1#8
def STRING_ID_Product : BitVec 8 := 2#8

section Callback

variable (sizes : DescriptorSizes)

def stringDescriptor (descrNumber : BitVec 8) : DescrAddress × Nat :=
  if descrNumber = STRING_ID_Language then (.languageString, sizes.language)
  else if descrNumber = STRING_ID_Manufacturer then (.manufacturerString, sizes.manufacturer)
  else if descrNumber = STRING_ID_Product then (.productString, sizes.product)
  else (.null, 0)

def callbackUsbGetDescriptor (wValue : BitVec 16) (avr : Avr) : DescrAddress × Nat × MemSpace :=
  let descrType := (wValue >>> 8).setWidth 8
  let descrNumber := wValue.setWidth 8
  if descrType = DTYPE_Device then (.deviceDescriptor, sizes.device, .flash)
  else if descrType = DTYPE_Configuration then
    (.configurationDescriptor, sizes.configuration, .ram)
  else if descrType = DTYPE_String then
    ((stringDescriptor sizes descrNumber).1, (stringDescriptor sizes descrNumber).2, .flash)
  else if descrType = HID_DTYPE_HID then (.hidMouseHid, sizes.hid, .flash)
  else if descrType = HID_DTYPE_Report then (.hidReportDesc, avr.hidReportLength, .ram)
  else (.null, 0, .flash)

/-- The bytes of the report descriptor the host is sent for this answer. -/
def reportBytes (avr : Avr) (answer : DescrAddress × Nat × MemSpace) : List (BitVec 8) :=
  if answer.1 = .hidReportDesc then (List.range answer.2.1).map avr.hidReportDesc else []

/-- What the host may read of the report descriptor: the length in the configuration descriptor
and the bytes of the descriptor itself, whose number does not matter. -/
structure ReportDescriptor where
  hidReportLength : Nat
  bytes : List (BitVec 8)
  deriving DecidableEq

def Avr.reportDescriptor (descrNumber : BitVec 8) (avr : Avr) : ReportDescriptor :=
  ⟨avr.hidReportLength,
    reportBytes avr (callbackUsbGetDescriptor sizes (HID_DTYPE_Report ++ descrNumber) avr)⟩

theorem Avr.reportDescriptor_eq (descrNumber : BitVec 8) (avr : Avr) :
    avr.reportDescriptor sizes descrNumber =
      ⟨avr.hidReportLength, (List.range avr.hidReportLength).map avr.hidReportDesc⟩ := by
  have htype : ((HID_DTYPE_Report ++ descrNumber) >>> 8).setWidth 8 = HID_DTYPE_Report := by
    ext i hlt
    rw [BitVec.getElem_setWidth, BitVec.getLsbD_ushiftRight, BitVec.getLsbD_append,
      if_neg (by omega), Nat.add_sub_cancel_left, BitVec.getLsbD_eq_getElem]
  have hanswer : callbackUsbGetDescriptor sizes (HID_DTYPE_Report ++ descrNumber) avr =
      (.hidReportDesc, avr.hidReportLength, .ram) := by
    simp only [callbackUsbGetDescriptor, htype]
    rfl
  rw [reportDescriptor, hanswer]
  rfl

end Callback

section Bytes

variable (libs : AvrLibs)

/-- `spi_task` up to its main loop. -/
def beginCommand (commandId : BitVec 8) (avr : Avr) : Avr :=
  { (prepareResponse libs commandId avr).2 with
    txCrc := libs.crcIbuttonUpdate 0#8 (prepareResponse libs commandId avr).1 }

/-- One turn of the main loop that ends with a byte clocked in. -/
def transceiveByte (value : BitVec 8) (avr : Avr) : Avr :=
  storeRxByte libs value (getNextTxByte libs avr).2

/-- `spi_task` from the rise of CS on. -/
def endCommand (commandId : BitVec 8) (fetchedMore : Bool) (avr : Avr) : Avr :=
  let avr := if fetchedMore then (getNextTxByte libs avr).2 else avr
  let avr :=
    if avr.rxIdx ≠ 0 ∧ avr.txIdx = avr.numTx then processTransaction libs commandId avr else avr
  { avr with numTx := 0, numRx := 0, txIdx := 0, rxIdx := 0 }

theorem transceiveBytes_foldl (data : List (BitVec 8)) (avr : Avr) :
    (transceiveBytes libs data avr).2 = data.foldl (fun a v => transceiveByte libs v a) avr := by
  induction data generalizing avr with
  | nil => rfl
  | cons value rest ih => exact ih (transceiveByte libs value avr)

theorem getNextTxByte_tx (avr : Avr) :
    (getNextTxByte libs avr).2.txData = avr.txData ∧
      (getNextTxByte libs avr).2.txIdx =
        (if avr.txIdx < avr.numTx then avr.txIdx + 1 else avr.txIdx) := by
  unfold getNextTxByte
  split
  next => exact ⟨rfl, rfl⟩
  next => exact ⟨rfl, rfl⟩

theorem storeRxByte_tx (value : BitVec 8) (avr : Avr) :
    (storeRxByte libs value avr).numTx = avr.numTx ∧
      (storeRxByte libs value avr).txData = avr.txData ∧
      (storeRxByte libs value avr).txIdx = avr.txIdx ∧
      (storeRxByte libs value avr).txCrc = avr.txCrc := by
  unfold storeRxByte
  split
  next =>
    cases avr.rxData with
    | null => exact ⟨rfl, rfl, rfl, rfl⟩
    | hidReportDesc => exact ⟨rfl, rfl, rfl, rfl⟩
    | rxBuf => exact ⟨rfl, rfl, rfl, rfl⟩
  next => exact ⟨rfl, rfl, rfl, rfl⟩

theorem storeRxByte_rx (value : BitVec 8) (avr : Avr) :
    (storeRxByte libs value avr).numRx = avr.numRx ∧
      (storeRxByte libs value avr).rxData = avr.rxData ∧
      (storeRxByte libs value avr).rxIdx =
        (if avr.rxIdx < avr.numRx then avr.rxIdx + 1 else avr.rxIdx) := by
  unfold storeRxByte
  split
  next =>
    cases hdata : avr.rxData with
    | null => exact ⟨rfl, hdata, rfl⟩
    | hidReportDesc => exact ⟨rfl, rfl, rfl⟩
    | rxBuf => exact ⟨rfl, rfl, rfl⟩
  next => exact ⟨rfl, rfl, rfl⟩

theorem spiCommand_bytes (commandId : BitVec 8) (data : List (BitVec 8)) (fetchedMore : Bool)
    (avr : Avr) :
    (spiCommand libs commandId data fetchedMore avr).2 = endCommand libs commandId fetchedMore
      (data.foldl (fun a v => transceiveByte libs v a) (beginCommand libs commandId avr)) := by
  rw [← transceiveBytes_foldl]
  rfl

end Bytes

/-- The SPI slave between two bytes. `command` is the command in progress and `received` its
bytes so far; `atAttach` is the report descriptor as it was when the device last left the
unattached state, and `application` what the last report descriptor command has set. -/
structure SpiSlave where
  avr : Avr
  command : Option (BitVec 8)
  received : List (BitVec 8)
  atAttach : ReportDescriptor
  application : Option (List (BitVec 8))

/-- The USB interrupt changes the state of the device between the bytes; CS falls and two bytes
are clocked in, a byte of data is, or CS rises. -/
inductive SpiSlaveStep
  | usb (state : UsbDeviceState)
  | select (handshake commandId : BitVec 8)
  | byte (value : BitVec 8)
  | deselect (fetchedMore : Bool)
  deriving DecidableEq

namespace SpiSlave

section Steps

variable (libs : AvrLibs) (sizes : DescriptorSizes) (descrNumber : BitVec 8)

def reset : SpiSlave :=
  { avr := .reset libs
    command := none
    received := []
    atAttach := ⟨0, []⟩
    application := none }

/-- The bytes of the command that go to the application part of the descriptor. -/
def stored (s : SpiSlave) : List (BitVec 8) :=
  if s.command = some 0x08#8 ∧ s.avr.usbDeviceState = .unattached then
    s.received.take (REPORT_DESCRIPTOR_MAX_SIZE - libs.DEVICE_CONTROL_REPORT_SIZE)
  else []

def step (s : SpiSlave) : SpiSlaveStep → Option SpiSlave
  | .usb state =>
    some { s with
      avr := { s.avr with usbDeviceState := state }
      atAttach :=
        if s.avr.usbDeviceState = .unattached then s.avr.reportDescriptor sizes descrNumber
        else s.atAttach }
  | .select handshake commandId =>
    match s.command with
    | none =>
      if handshake ≠ 0x42#8 ∨ commandId = 0#8 then some s
      else some { s with
        avr := beginCommand libs commandId s.avr
        command := some commandId
        received := [] }
    | some _ => none
  | .byte value =>
    match s.command with
    | some _ => some { s with
        avr := transceiveByte libs value s.avr
        received := s.received ++ [value] }
    | none => none
  | .deselect fetchedMore =>
    match s.command with
    | some commandId => some { s with
        avr := endCommand libs commandId fetchedMore s.avr
        command := none
        received := []
        application := if s.stored libs = [] then s.application else some (s.stored libs) }
    | none => none

variable {libs sizes descrNumber}

theorem replay_byte {s : SpiSlave} {commandId : BitVec 8} (h : s.command = some commandId)
    (data : List (BitVec 8)) :
    replay (step libs sizes descrNumber) s (data.map .byte) = some { s with
      avr := data.foldl (fun a v => transceiveByte libs v a) s.avr
      received := s.received ++ data } := by
  induction data generalizing s with
  | nil => simp [replay]
  | cons value rest ih =>
    have hstep : step libs sizes descrNumber s (.byte value) = some { s with
        avr := transceiveByte libs value s.avr
        received := s.received ++ [value] } := by
      simp only [step, h]
    rw [List.map_cons, replay, hstep, Option.bind_some]
    refine (ih (s := { s with
      avr := transceiveByte libs value s.avr
      received := s.received ++ [value] }) h).trans ?_
    simp

/-- A transaction taken byte by byte is that of `spiTask`. -/
theorem replay_spiTask {s : SpiSlave} (h : s.command = none) (t : SpiTransaction)
    (hhandshake : t.handshake = 0x42#8) (hcommand : t.commandId ≠ 0#8) :
    (replay (step libs sizes descrNumber) s
      (.select t.handshake t.commandId :: t.data.map .byte ++ [.deselect t.fetchedMore])).map avr =
      some (spiTask libs t s.avr).2 := by
  have hselect : step libs sizes descrNumber s (.select t.handshake t.commandId) = some { s with
      avr := beginCommand libs t.commandId s.avr
      command := some t.commandId
      received := [] } := by
    simp [step, h, hhandshake, hcommand]
  rw [List.cons_append, replay, hselect, Option.bind_some, replay_append, replay_byte rfl,
    Option.bind_some]
  have htask : spiTask libs t s.avr = spiCommand libs t.commandId t.data t.fetchedMore s.avr := by
    rw [spiTask, if_neg (by simp [hhandshake]), if_neg hcommand]
  rw [htask, spiCommand_bytes]
  rfl

end Steps

end SpiSlave

end MyMouse
