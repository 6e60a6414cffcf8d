import Mathlib.Algebra.Group.Nat.Defs
import Mathlib.Data.List.Basic
import Mathlib.Logic.Function.Basic

namespace MyMouse

inductive UsbDeviceState
  | unattached
  | powered
  | default
  | addressed
  | configured
  | suspended
  deriving DecidableEq

inductive RxData
  | null
  | hidReportDesc
  | rxBuf
  deriving DecidableEq

/-- What `tx_data` points to: the device id response without its first byte. -/
inductive TxData
  | null
  | deviceIdResponse
  deriving DecidableEq

/-- `_crc_ibutton_update` of avr-libc and the bytes LUFA's macros make of
`DEVICE_CONTROL_REPORT_DESCRIPTOR`. -/
structure AvrLibs where
  crcIbuttonUpdate : BitVec 8 → BitVec 8 → BitVec 8
  deviceControlReport : List (BitVec 8)

structure UsbInit where
  hidReportLength : Nat
  hidReportDesc : Nat → BitVec 8

/-- The statics of spi.c, spi_commands.c and descriptors.c; `usbInits` remembers the calls of
`USB_Init`, the latest first. -/
structure Avr where
  usbDeviceState : UsbDeviceState
  hidReportDesc : Nat → BitVec 8
  hidReportLength : Nat
  rxBuf : Nat → BitVec 8
  numTx : Nat
  numRx : Nat
  txIdx : Nat
  rxIdx : Nat
  txData : TxData
  rxData : RxData
  txCrc : BitVec 8
  usbInits : List UsbInit

def REPORT_DESCRIPTOR_MAX_SIZE : Nat := 256
def deviceIdResponse : List (BitVec 8) := [0x1E#8, 0x93#8, 0x89#8]

def AvrLibs.DEVICE_CONTROL_REPORT_SIZE (libs : AvrLibs) : Nat := libs.deviceControlReport.length

/-- The AVR after its reset, where `SetupHardware` has run. -/
def Avr.reset (libs : AvrLibs) : Avr :=
  { usbDeviceState := .unattached
    hidReportDesc := fun i => libs.deviceControlReport.getD i 0#8
    hidReportLength := 0
    rxBuf := fun _ => 0#8
    numTx := 0
    numRx := 0
    txIdx := 0
    rxIdx := 0
    txData := .null
    rxData := .null
    txCrc := 0#8
    usbInits := [] }

section Firmware

variable (libs : AvrLibs)

def setHidReportSize (size : Nat) (avr : Avr) : Avr :=
  let fullSize := libs.DEVICE_CONTROL_REPORT_SIZE + size
  if avr.usbDeviceState = .unattached ∧ fullSize ≤ REPORT_DESCRIPTOR_MAX_SIZE then
    { avr with hidReportLength := fullSize }
  else avr

/-- The size is an `uint8_t`. -/
def getHidReportDescriptorBuffer (avr : Avr) : Avr :=
  if avr.usbDeviceState = .unattached then
    { avr with
      numRx := (REPORT_DESCRIPTOR_MAX_SIZE - libs.DEVICE_CONTROL_REPORT_SIZE) % 2 ^ 8
      rxData := .hidReportDesc }
  else { avr with numRx := 0 }

def usbInit (avr : Avr) : Avr :=
  { avr with usbInits := ⟨avr.hidReportLength, avr.hidReportDesc⟩ :: avr.usbInits }

def prepareResponse (commandId : BitVec 8) (avr : Avr) : BitVec 8 × Avr :=
  if commandId = 0x06#8 then
    (0x1E#8, { avr with txData := .deviceIdResponse, numTx := deviceIdResponse.length - 1 })
  else if commandId = 0x08#8 then (0#8, getHidReportDescriptorBuffer libs avr)
  else if commandId = 0x09#8 then (0#8, { avr with rxData := .rxBuf, numRx := 1 })
  else if commandId = 0x0A#8 then (0#8, { avr with rxData := .rxBuf, numRx := 32 })
  else (0#8, avr)

/-- The report command writes to the USB endpoint only. -/
def processTransaction (commandId : BitVec 8) (avr : Avr) : Avr :=
  if commandId = 0x08#8 then setHidReportSize libs avr.rxIdx avr
  else if commandId = 0x09#8 then if avr.rxBuf 0 ≠ 0#8 then usbInit avr else avr
  else avr

def getNextTxByte (avr : Avr) : BitVec 8 × Avr :=
  if avr.txIdx < avr.numTx then
    let nextByte :=
      match avr.txData with
      | .deviceIdResponse => deviceIdResponse.getD (avr.txIdx + 1) 0#8
      | .null => 0#8
    (nextByte, { avr with
      txIdx := avr.txIdx + 1
      txCrc := libs.crcIbuttonUpdate avr.txCrc nextByte })
  else (avr.txCrc, avr)

def storeRxByte (value : BitVec 8) (avr : Avr) : Avr :=
  if avr.rxIdx < avr.numRx then
    let stored :=
      match avr.rxData with
      | .hidReportDesc => { avr with
          hidReportDesc :=
            Function.update avr.hidReportDesc (libs.DEVICE_CONTROL_REPORT_SIZE + avr.rxIdx) value }
      | .rxBuf => { avr with rxBuf := Function.update avr.rxBuf avr.rxIdx value }
      | .null => avr
    { stored with rxIdx := avr.rxIdx + 1 }
  else avr

/-- The main data transfer loop on the bytes clocked in before CS goes high, with the bytes
set to be clocked out next. -/
def transceiveBytes : List (BitVec 8) → Avr → List (BitVec 8) × Avr
  | [], avr => ([], avr)
  | value :: rest, avr =>
    let (txByte, avr) := getNextTxByte libs avr
    let (txBytes, avr) := transceiveBytes rest (storeRxByte libs value avr)
    (txByte :: txBytes, avr)

/-- A transaction as the AVR sees it; `fetchedMore` when the loop is entered once more
before CS goes high. -/
structure SpiTransaction where
  handshake : BitVec 8
  commandId : BitVec 8
  data : List (BitVec 8)
  fetchedMore : Bool

/-- The command handling of `spi_task`, once the command byte is there, with the bytes
clocked out. -/
def spiCommand (commandId : BitVec 8) (data : List (BitVec 8)) (fetchedMore : Bool) (avr : Avr) :
    List (BitVec 8) × Avr :=
  let (firstTxByte, avr) := prepareResponse libs commandId avr
  let avr := { avr with txCrc := libs.crcIbuttonUpdate 0#8 firstTxByte }
  let (txBytes, avr) := transceiveBytes libs data avr
  let avr := if fetchedMore then (getNextTxByte libs avr).2 else avr
  let avr :=
    if avr.rxIdx ≠ 0 ∧ avr.txIdx = avr.numTx then processTransaction libs commandId avr else avr
  ((firstTxByte :: txBytes).take data.length,
    { avr with numTx := 0, numRx := 0, txIdx := 0, rxIdx := 0 })

def spiTask (t : SpiTransaction) (avr : Avr) : List (BitVec 8) × Avr :=
  if t.handshake ≠ 0x42#8 then ([], avr)
  else if t.commandId = 0#8 then ([], avr)
  else spiCommand libs t.commandId t.data t.fetchedMore avr

end Firmware

structure Avr.Idle (avr : Avr) : Prop where
  numTx : avr.numTx = 0
  numRx : avr.numRx = 0
  txIdx : avr.txIdx = 0
  rxIdx : avr.rxIdx = 0

theorem Avr.idle_reset (libs : AvrLibs) : (Avr.reset libs).Idle := ⟨rfl, rfl, rfl, rfl⟩

theorem spiCommand_idle (libs : AvrLibs) (commandId : BitVec 8) (data : List (BitVec 8))
    (fetchedMore : Bool) (avr : Avr) : (spiCommand libs commandId data fetchedMore avr).2.Idle :=
  ⟨rfl, rfl, rfl, rfl⟩

end MyMouse
