import MyMouse.Run
import MyMouse.Spi
import Mathlib.Logic.Function.Basic

namespace MyMouse

open Runs

inductive SpiRequest
  | avrTransceive (handshakeTxBuf : BitVec 32) (dataSpec : SpiTransferSpec)
  | adns7530SpiTransceive (txBuf txLen rxBuf rxLen : BitVec 32)
  deriving DecidableEq

namespace SpiRequest

def callback : SpiRequest → SpiDoneCallback
  | .avrTransceive _ _ => .avrSpiDoneCallback
  | .adns7530SpiTransceive _ _ _ _ => .adns7530SpiDoneCallback

/-- The first transfer; `handshakeRxBuf` is the address of the buffer in `avr_spi_cb_ctx`. -/
def spec (handshakeRxBuf : BitVec 32) : SpiRequest → SpiTransferSpec
  | .avrTransceive handshakeTxBuf _ => ⟨handshakeTxBuf, 2#32, handshakeRxBuf, 2#32⟩
  | .adns7530SpiTransceive txBuf txLen _ _ => ⟨txBuf, txLen, 0#32, 0#32⟩

/-- The three assignments before the call, which is made without the lock. -/
def assign : SpiRequest → Nat → Spi → Spi
  | .avrTransceive _ _, 0, s => { s with avrSpiCbCtx := { s.avrSpiCbCtx with err := - EIO } }
  | .avrTransceive _ dataSpec, 1, s =>
    { s with avrSpiCbCtx := { s.avrSpiCbCtx with spec := some dataSpec } }
  | .avrTransceive _ _, _, s => { s with avrSpiCbCtx := { s.avrSpiCbCtx with handshakeRx := 0#8 } }
  | .adns7530SpiTransceive _ _ _ _, 0, s =>
    { s with adns7530SpiCbCtx := { s.adns7530SpiCbCtx with err := - EIO } }
  | .adns7530SpiTransceive _ _ _ rxLen, 1, s =>
    { s with adns7530SpiCbCtx := { s.adns7530SpiCbCtx with rxLen := rxLen } }
  | .adns7530SpiTransceive _ _ rxBuf _, _, s =>
    { s with adns7530SpiCbCtx := { s.adns7530SpiCbCtx with rxBuf := rxBuf } }

end SpiRequest

structure SpiCall where
  id : Nat
  request : SpiRequest
  deriving DecidableEq

/-- What a thread does next in its call of `spi_transceive_managed`. -/
inductive ManagedPc
  | idle
  | prepare (call : SpiCall) (assigned : Nat)
  | lock (call : SpiCall)
  | configure (call : SpiCall)
  | transceive (call : SpiCall)
  | start (call : SpiCall)
  | take (call : SpiCall)
  | exit (call : SpiCall) (err : Int)
  deriving DecidableEq

namespace ManagedPc

def call? : ManagedPc → Option SpiCall
  | .idle => none
  | .prepare call _ | .lock call | .configure call | .transceive call | .start call | .take call
  | .exit call _ => some call

def locked : ManagedPc → Bool
  | .configure _ | .transceive _ | .start _ | .take _ => true
  | _ => false

end ManagedPc

structure ManagedSpi where
  spi : Spi
  pc : Nat → ManagedPc
  nextCall : Nat
  returned : List (Nat × Int)

/-- A thread goes on, or its wait for the lock or the semaphore times out; the END
interrupt of one of the transfers in flight comes, with what the handshake received. -/
inductive ManagedStep
  | call (thread : Nat) (request : SpiRequest)
  | run (thread : Nat)
  | timeout (thread : Nat)
  | spiIrq (index : Nat) (handshakeRx : BitVec 8)
  deriving DecidableEq

namespace ManagedSpi

def reset : ManagedSpi :=
  { spi := Spi.reset, pc := fun _ => .idle, nextCall := 0, returned := [] }

def moveTo (s : ManagedSpi) (thread : Nat) (pc : ManagedPc) : ManagedSpi :=
  { s with pc := Function.update s.pc thread pc }

/-- `spi_transceive_managed` of one thread, statement by statement. -/
def runThread (handshakeRxBuf : BitVec 32) (thread : Nat) (s : ManagedSpi) : Option ManagedSpi :=
  match s.pc thread with
  | .idle => none
  | .prepare call assigned =>
    some { s.moveTo thread (if assigned < 2 then .prepare call (assigned + 1) else .lock call) with
      spi := call.request.assign assigned s.spi }
  | .lock call =>
    if s.spi.mutexOwner = none then
      some { s.moveTo thread (.configure call) with
        spi := { s.spi with mutexOwner := some thread } }
    else none
  | .configure call =>
    if spiConfigure (.thread thread) s.spi = 0 then some (s.moveTo thread (.transceive call))
    else some (s.moveTo thread (.exit call (spiConfigure (.thread thread) s.spi)))
  | .transceive call =>
    match spiTransceiveSetup (.thread thread) (call.request.spec handshakeRxBuf)
      call.request.callback call.id s.spi with
    | .error err => some (s.moveTo thread (.exit call err))
    | .ok spi => some { s.moveTo thread (.start call) with spi := spi }
  | .start call =>
    some { s.moveTo thread (.take call) with
      spi := s.spi.start (call.request.spec handshakeRxBuf) call.id }
  | .take call =>
    if s.spi.syncSem = 0 then none
    else some { s.moveTo thread (.exit call 0) with
      spi := { s.spi with syncSem := s.spi.syncSem - 1 } }
  | .exit call err =>
    some { s.moveTo thread .idle with
      spi := spiUnlock thread s.spi
      returned := (call.id, err) :: s.returned }

/-- The end of a transfer leaves what was received in its buffer. -/
def receive (handshakeRxBuf : BitVec 32) (transfer : SpiTransfer) (rx : BitVec 8) (s : Spi) : Spi :=
  if transfer.spec.rxBuf = handshakeRxBuf then
    { s with avrSpiCbCtx := { s.avrSpiCbCtx with handshakeRx := rx } }
  else s

def step (handshakeRxBuf : BitVec 32) (s : ManagedSpi) : ManagedStep → Option ManagedSpi
  | .call thread request =>
    if s.pc thread = .idle then
      some { s.moveTo thread (.prepare ⟨s.nextCall, request⟩ 0) with nextCall := s.nextCall + 1 }
    else none
  | .run thread => s.runThread handshakeRxBuf thread
  | .timeout thread =>
    match s.pc thread with
    | .lock call =>
      if s.spi.mutexOwner = none then none else some (s.moveTo thread (.exit call (-EAGAIN)))
    | .take call =>
      if s.spi.syncSem = 0 then some (s.moveTo thread (.exit call (-EAGAIN))) else none
    | _ => none
  | .spiIrq index rx =>
    match s.spi.inFlight[index]? with
    | some transfer =>
      some { s with
        spi := spiIrqHandler (receive handshakeRxBuf transfer rx
          { s.spi with inFlight := s.spi.inFlight.eraseIdx index }) }
    | none => none

/-- No call that has returned has a transfer in flight. In a later state it would, had its
callback started another one. -/
def ReturnedOver (s : ManagedSpi) : Prop :=
  ∀ call err, (call, err) ∈ s.returned → ∀ transfer ∈ s.spi.inFlight, transfer.call ≠ call

/-- The step is not a wait for the end of the transaction running out of time. -/
def InTime (s : ManagedSpi) : ManagedStep → Prop
  | .timeout thread => (s.pc thread).locked = false
  | _ => True

instance (s : ManagedSpi) (a : ManagedStep) : Decidable (InTime s a) :=
  match a with
  | .timeout _ => inferInstanceAs (Decidable (_ = _))
  | .call _ _ => inferInstanceAs (Decidable True)
  | .run _ => inferInstanceAs (Decidable True)
  | .spiIrq _ _ => inferInstanceAs (Decidable True)

end ManagedSpi

end MyMouse
