import MyMouse.AvrSpi
import MyMouse.Errno

namespace MyMouse

def HID_REPORT_ID : BitVec 8 := 1#8
def HID_REPORT_MAP_SIZE : Nat := 68

def hidReportMap : List (BitVec 8) :=
  [0x05, 0x01, 0x09, 0x02, 0xA1, 0x01, 0x85, HID_REPORT_ID, 0x09, 0x01, 0xA1, 0x00,
    0x95, 0x03, 0x75, 0x01, 0x05, 0x09, 0x19, 0x01, 0x29, 0x03, 0x15, 0x00, 0x25, 0x01, 0x81, 0x02,
    0x95, 0x01, 0x75, 0x05, 0x81, 0x01,
    0x95, 0x01, 0x75, 0x08, 0x05, 0x01, 0x09, 0x38, 0x15, 0x81, 0x25, 0x7F, 0x81, 0x06,
    0x95, 0x02, 0x75, 0x0C, 0x05, 0x01, 0x09, 0x30, 0x09, 0x31, 0x16, 0x01, 0xF8, 0x26, 0xFF, 0x07,
    0x81, 0x06, 0xC0, 0xC0]

theorem hidReportMap_length : hidReportMap.length = HID_REPORT_MAP_SIZE := by decide

/-- One turn of the loop of `update_crc`. -/
def shiftCrc (crc : BitVec 8) : BitVec 8 :=
  if crc.getLsbD 0 then (crc >>> 1) ^^^ 0x8C#8 else crc >>> 1

def updateCrc (crc data : BitVec 8) : BitVec 8 :=
  Nat.repeat shiftCrc 8 (crc ^^^ data)

/-- The check of `avr_transceive`: the last byte received is the CRC of those before it. -/
def crcValid (rxBuf : List (BitVec 8)) : Bool :=
  rxBuf.dropLast.foldl updateCrc 0#8 == rxBuf.getLastD 0#8

/-- The result of `verify_avr_id` once `avr_transceive` has received its four bytes. -/
def verifyResponse (response : List (BitVec 8)) : Int :=
  if crcValid response then
    if response.getD 0 0#8 ≠ 0x1E#8 ∨ response.getD 1 0#8 ≠ 0x93#8 ∨ response.getD 2 0#8 ≠ 0x89#8 then 1
    else 0
  else - EIO

/-- The commands of avr_comm.c, with the bytes clocked out for each: nothing but zeros for
a response. -/
inductive AvrCommand
  | verifyAvrId
  | sendReportDescriptor
  | enableUsb
  | sendReport
  deriving DecidableEq

namespace AvrCommand

def commandId : AvrCommand → BitVec 8
  | .verifyAvrId => 0x06#8
  | .sendReportDescriptor => 0x08#8
  | .enableUsb => 0x09#8
  | .sendReport => 0x0A#8

def payload : AvrCommand → List (BitVec 8)
  | .verifyAvrId => [0x00, 0x00, 0x00, 0x00]
  | .sendReportDescriptor => hidReportMap
  | .enableUsb => [0x01]
  | .sendReport => [HID_REPORT_ID, 0x00, 0x00, 0x01, 0x00, 0x00]

end AvrCommand

/-- What comes of a command: the AVR takes it, does not return the handshake, or
`spi_transceive_managed` fails, having clocked some bytes to the AVR or none. -/
inductive CommandOutcome
  | accepted
  | busy
  | failed (err : Int) (clocked : Option Nat)
  deriving DecidableEq

def CommandOutcome.received (payload : List (BitVec 8)) : CommandOutcome → Option (List (BitVec 8))
  | .accepted => some payload
  | .busy => none
  | .failed _ none => none
  | .failed _ (some clocked) => some (payload.take clocked)

/-- A command, with what the AVR's loop does at its end. -/
structure CommandRun where
  outcome : CommandOutcome
  fetchedMore : Bool

/-- A turn of the loop of `avr_comm_loop`, and the USB states at its two commands. -/
structure LoopTurn where
  report : CommandRun
  verify : CommandRun
  usbAtReport : UsbDeviceState
  usbAtVerify : UsbDeviceState

structure LoopOutcomes where
  descriptor : CommandRun
  enable : CommandRun
  turns : List LoopTurn

section Loop

variable (libs : AvrLibs)

def avrTransceive (command : AvrCommand) (run : CommandRun) (avr : Avr) :
    List (BitVec 8) × Avr :=
  match run.outcome.received command.payload with
  | some data => spiTask libs ⟨0x42#8, command.commandId, data, run.fetchedMore⟩ avr
  | none => ([], avr)

def verifyAvrId (run : CommandRun) (avr : Avr) : Int × Avr :=
  let (response, avr) := avrTransceive libs .verifyAvrId run avr
  match run.outcome with
  | .accepted => (verifyResponse response, avr)
  | .busy => (-EBUSY, avr)
  | .failed err _ => (err, avr)

def serveLoop : List LoopTurn → Avr → Avr
  | [], avr => avr
  | turn :: rest, avr =>
    let avr := (avrTransceive libs .sendReport turn.report
      { avr with usbDeviceState := turn.usbAtReport }).2
    let (result, avr) := verifyAvrId libs turn.verify { avr with usbDeviceState := turn.usbAtVerify }
    if result ≠ 1 then serveLoop rest avr else avr

/-- The results of the first two commands are not looked at. -/
def avrCommLoop (outcomes : LoopOutcomes) (avr : Avr) : Avr :=
  let avr := (avrTransceive libs .sendReportDescriptor outcomes.descriptor avr).2
  let avr := (avrTransceive libs .enableUsb outcomes.enable avr).2
  serveLoop libs outcomes.turns avr

end Loop

end MyMouse
