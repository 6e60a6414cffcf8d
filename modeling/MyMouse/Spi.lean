import MyMouse.Errno

namespace MyMouse

structure SpiTransferSpec where
  txBuf : BitVec 32
  txLen : BitVec 32
  rxBuf : BitVec 32
  rxLen : BitVec 32
  deriving DecidableEq

/-- The callbacks given to `spi_transceive_managed`, those of avr_comm.c and adns7530.c. -/
inductive SpiDoneCallback
  | avrSpiDoneCallback
  | adns7530SpiDoneCallback
  deriving DecidableEq

structure AvrSpiCbCtx where
  err : Int
  handshakeRx : BitVec 8
  spec : Option SpiTransferSpec
  deriving DecidableEq

structure Adns7530SpiCbCtx where
  err : Int
  rxLen : BitVec 32
  rxBuf : BitVec 32
  deriving DecidableEq

structure SpiTransfer where
  call : Nat
  spec : SpiTransferSpec
  deriving DecidableEq

/-- The statics of spi.c and of its two clients, the owner of `spi_mutex`, the count of
`spi_sync_sem`, and the transfers whose END interrupt is still to come. The callback slot
also remembers the call that set it. -/
structure Spi where
  isrCtx : Option (SpiDoneCallback × Nat)
  mutexOwner : Option Nat
  isInSpiIsr : Bool
  syncSem : Nat
  inFlight : List SpiTransfer
  avrSpiCbCtx : AvrSpiCbCtx
  adns7530SpiCbCtx : Adns7530SpiCbCtx
  deriving DecidableEq

inductive SpiCaller
  | thread (id : Nat)
  | isr
  deriving DecidableEq

def HANDSHAKE_RX_VALUE : BitVec 8 := 0x43#8

namespace Spi

def reset : Spi :=
  { isrCtx := none, mutexOwner := none, isInSpiIsr := false, syncSem := 0, inFlight := [],
    avrSpiCbCtx := ⟨0, 0#8, none⟩, adns7530SpiCbCtx := ⟨0, 0#32, 0#32⟩ }

/-- `CHECK_LOCK_OWNED`: the SPI interrupt handler may go on, and the owner of the mutex. -/
def lockOwned (caller : SpiCaller) (s : Spi) : Bool :=
  match caller with
  | .isr => s.isInSpiIsr
  | .thread id => s.mutexOwner == some id

def semGive (s : Spi) : Spi := { s with syncSem := 1 }

def start (spec : SpiTransferSpec) (call : Nat) (s : Spi) : Spi :=
  { s with inFlight := s.inFlight ++ [⟨call, spec⟩] }

end Spi

/-- The result alone; the registers `spi_configure` writes have no part in it. -/
def spiConfigure (caller : SpiCaller) (s : Spi) : Int :=
  if s.lockOwned caller then 0 else -EPERM

/-- `k_mutex_unlock` refuses a thread that does not own the mutex. -/
def spiUnlock (id : Nat) (s : Spi) : Spi :=
  if s.mutexOwner = some id then { s with mutexOwner := none } else s

def isAddrInRam (ptr : BitVec 32) : Bool :=
  ptr &&& 0xE0000000#32 == 0x20000000#32

/-- `spi_transceive` up to the start of the transfer. -/
def spiTransceiveSetup (caller : SpiCaller) (spec : SpiTransferSpec) (callback : SpiDoneCallback)
    (call : Nat) (s : Spi) : Except Int Spi :=
  if s.lockOwned caller then
    if (spec.txBuf ≠ 0#32 ∧ !isAddrInRam spec.txBuf) ∨ (spec.rxBuf ≠ 0#32 ∧ !isAddrInRam spec.rxBuf) then
      .error (-EINVAL)
    else .ok { s with isrCtx := some (callback, call) }
  else .error (-EPERM)

def spiTransceive (caller : SpiCaller) (spec : SpiTransferSpec) (callback : SpiDoneCallback)
    (call : Nat) (s : Spi) : Int × Spi :=
  match spiTransceiveSetup caller spec callback call s with
  | .error err => (err, s)
  | .ok s => (0, s.start spec call)

def avrSpiDoneCallback (call : Nat) (s : Spi) : Spi :=
  match s.avrSpiCbCtx.spec with
  | some spec =>
    if s.avrSpiCbCtx.handshakeRx ≠ HANDSHAKE_RX_VALUE then
      { s with avrSpiCbCtx := { s.avrSpiCbCtx with err := -EBUSY } }.semGive
    else
      let (err, s) := spiTransceive .isr spec .avrSpiDoneCallback call s
      let s := { s with avrSpiCbCtx := { s.avrSpiCbCtx with err := err } }
      if err = 0 then { s with avrSpiCbCtx := { s.avrSpiCbCtx with spec := none } }
      else s.semGive
  | none => s.semGive

def adns7530SpiDoneCallback (call : Nat) (s : Spi) : Spi :=
  if s.adns7530SpiCbCtx.rxBuf ≠ 0#32 then
    let rxSpec : SpiTransferSpec := ⟨0#32, 0#32, s.adns7530SpiCbCtx.rxBuf, s.adns7530SpiCbCtx.rxLen⟩
    let s := { s with adns7530SpiCbCtx := { s.adns7530SpiCbCtx with rxBuf := 0#32 } }
    let (err, s) := spiTransceive .isr rxSpec .adns7530SpiDoneCallback call s
    let s := { s with adns7530SpiCbCtx := { s.adns7530SpiCbCtx with err := err } }
    if err = 0 then s else s.semGive
  else s.semGive

def spiDoneCallback : SpiDoneCallback → Nat → Spi → Spi
  | .avrSpiDoneCallback => avrSpiDoneCallback
  | .adns7530SpiDoneCallback => adns7530SpiDoneCallback

/-- The handler of an END interrupt; threads do not run meanwhile. -/
def spiIrqHandler (s : Spi) : Spi :=
  match s.isrCtx with
  | some (callback, call) =>
    { spiDoneCallback callback call { s with isInSpiIsr := true } with isInSpiIsr := false }
  | none => s

/-- What a callback run for `call` does to the bus: it gives the semaphore, or it starts
one more transfer for that call. -/
structure Spi.DoneFor (call : Nat) (s t : Spi) : Prop where
  owner : t.mutexOwner = s.mutexOwner
  slot : t.isrCtx.map Prod.snd = some call
  bus : (t.syncSem = 1 ∧ t.inFlight = s.inFlight) ∨
    (t.syncSem = s.syncSem ∧ ∃ spec, t.inFlight = s.inFlight ++ [⟨call, spec⟩])

section Done

variable {call : Nat} {s : Spi}

theorem spiTransceive_cases (caller : SpiCaller) (spec : SpiTransferSpec)
    (callback : SpiDoneCallback) (call : Nat) (s : Spi) :
    ((spiTransceive caller spec callback call s).1 ≠ 0 ∧
      (spiTransceive caller spec callback call s).2 = s) ∨
    spiTransceive caller spec callback call s =
      (0, { s with isrCtx := some (callback, call), inFlight := s.inFlight ++ [⟨call, spec⟩] }) := by
  unfold spiTransceive spiTransceiveSetup
  by_cases howned : s.lockOwned caller = true
  · rw [if_pos howned]
    split
    next err s' hsetup =>
      left
      split at hsetup
      next =>
        cases hsetup
        exact ⟨by simp [EINVAL], rfl⟩
      next => simp at hsetup
    next s' hsetup =>
      right
      split at hsetup
      next => simp at hsetup
      next =>
        cases hsetup
        rfl
  · rw [if_neg howned]
    exact Or.inl ⟨by simp [EPERM], rfl⟩

theorem semGive_doneFor (hslot : s.isrCtx.map Prod.snd = some call) :
    Spi.DoneFor call s s.semGive :=
  ⟨rfl, hslot, Or.inl ⟨rfl, rfl⟩⟩

theorem avrSpiDoneCallback_doneFor (hslot : s.isrCtx.map Prod.snd = some call) :
    Spi.DoneFor call s (avrSpiDoneCallback call s) := by
  unfold avrSpiDoneCallback
  split
  next spec _ =>
    split
    next => exact ⟨rfl, hslot, Or.inl ⟨rfl, rfl⟩⟩
    next =>
      rcases spiTransceive_cases .isr spec .avrSpiDoneCallback call s with
        ⟨herr, hsame⟩ | hstarted
      · simp only [herr, if_false, hsame]
        exact ⟨rfl, hslot, Or.inl ⟨rfl, rfl⟩⟩
      · simp only [hstarted, if_true]
        exact ⟨rfl, rfl, Or.inr ⟨rfl, spec, rfl⟩⟩
  next => exact semGive_doneFor hslot

theorem adns7530SpiDoneCallback_doneFor (hslot : s.isrCtx.map Prod.snd = some call) :
    Spi.DoneFor call s (adns7530SpiDoneCallback call s) := by
  unfold adns7530SpiDoneCallback
  split
  next =>
    rcases spiTransceive_cases .isr
      ⟨0#32, 0#32, s.adns7530SpiCbCtx.rxBuf, s.adns7530SpiCbCtx.rxLen⟩ .adns7530SpiDoneCallback call
      { s with adns7530SpiCbCtx := { s.adns7530SpiCbCtx with rxBuf := 0#32 } } with
      ⟨herr, hsame⟩ | hstarted
    · simp only [herr, if_false, hsame]
      exact ⟨rfl, hslot, Or.inl ⟨rfl, rfl⟩⟩
    · simp only [hstarted, if_true]
      exact ⟨rfl, rfl, Or.inr ⟨rfl, _, rfl⟩⟩
  next => exact semGive_doneFor hslot

theorem spiDoneCallback_doneFor (callback : SpiDoneCallback)
    (hslot : s.isrCtx.map Prod.snd = some call) :
    Spi.DoneFor call s (spiDoneCallback callback call s) := by
  cases callback with
  | avrSpiDoneCallback => exact avrSpiDoneCallback_doneFor hslot
  | adns7530SpiDoneCallback => exact adns7530SpiDoneCallback_doneFor hslot

theorem spiIrqHandler_doneFor (hslot : s.isrCtx.map Prod.snd = some call) :
    Spi.DoneFor call s (spiIrqHandler s) := by
  unfold spiIrqHandler
  split
  next callback owner hctx =>
    have howner : owner = call := by simpa [hctx] using hslot
    subst howner
    have hdone := spiDoneCallback_doneFor callback (s := { s with isInSpiIsr := true }) hslot
    exact ⟨hdone.owner, hdone.slot, hdone.bus⟩
  next hctx => simp [hctx] at hslot

end Done

end MyMouse
