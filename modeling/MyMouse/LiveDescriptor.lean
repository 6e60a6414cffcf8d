import MyMouse.SpiBytes
import MyMouse.UsbDescriptor

namespace MyMouse

open Memory Runs

namespace SpiSlave

variable {libs : AvrLibs} {sizes : DescriptorSizes} {descrNumber : BitVec 8} {s t : SpiSlave}

/-- While attached the report descriptor is the one the device was attached with. -/
def Immutable (sizes : DescriptorSizes) (descrNumber : BitVec 8) (s : SpiSlave) : Prop :=
  s.avr.usbDeviceState ≠ .unattached →
    s.avr.reportDescriptor sizes descrNumber = s.atAttach

/-- A byte that goes to the descriptor while the device is attached is the one already there,
or lies behind the end of the descriptor. -/
def Harmless (libs : AvrLibs) (s : SpiSlave) : SpiSlaveStep → Prop
  | .byte value =>
    s.avr.usbDeviceState ≠ .unattached → s.avr.rxData = .hidReportDesc →
      s.avr.rxIdx < s.avr.numRx →
      libs.DEVICE_CONTROL_REPORT_SIZE + s.avr.rxIdx < s.avr.hidReportLength →
      value = s.avr.hidReportDesc (libs.DEVICE_CONTROL_REPORT_SIZE + s.avr.rxIdx)
  | _ => True

instance (libs : AvrLibs) (s : SpiSlave) (a : SpiSlaveStep) : Decidable (Harmless libs s a) :=
  match a with
  | .byte _ => inferInstanceAs (Decidable (_ → _))
  | .usb _ | .select _ _ | .deselect _ => inferInstanceAs (Decidable True)

theorem reportDescriptor_congr {a b : Avr} (h : SameDescriptor a b) :
    b.reportDescriptor sizes descrNumber = a.reportDescriptor sizes descrNumber := by
  rw [Avr.reportDescriptor_eq, Avr.reportDescriptor_eq, h.desc, h.length]

theorem immutable_of_same (hsame : SameDescriptor s.avr t.avr) (hattach : t.atAttach = s.atAttach)
    (h : s.Immutable sizes descrNumber) : t.Immutable sizes descrNumber := by
  intro hstate
  rw [reportDescriptor_congr hsame, hattach]
  exact h (by rwa [← hsame.usb])

theorem immutable_usb (h : s.Immutable sizes descrNumber) {state : UsbDeviceState}
    (hstep : step libs sizes descrNumber s (.usb state) = some t) :
    t.Immutable sizes descrNumber := by
  cases Option.some.inj hstep
  intro _
  simp only
  split
  next => rfl
  next hattached => exact h hattached

theorem beginCommand_same (libs : AvrLibs) (commandId : BitVec 8) (avr : Avr) :
    SameDescriptor avr (beginCommand libs commandId avr) := by
  have hprepare : SameDescriptor avr (prepareResponse libs commandId avr).2 := by
    unfold prepareResponse
    split
    next => exact ⟨rfl, rfl, rfl, rfl⟩
    next =>
      split
      next => exact SameDescriptor.ite ⟨rfl, rfl, rfl, rfl⟩ ⟨rfl, rfl, rfl, rfl⟩
      next =>
        split
        next => exact ⟨rfl, rfl, rfl, rfl⟩
        next =>
          split
          next => exact ⟨rfl, rfl, rfl, rfl⟩
          next => exact SameDescriptor.refl avr
  exact ⟨hprepare.desc, hprepare.length, hprepare.usb, hprepare.inits⟩

/-- While attached a command can do no more to the descriptor than to pass it to `USB_Init`. -/
theorem processTransaction_attached (libs : AvrLibs) (commandId : BitVec 8) {avr : Avr}
    (hstate : avr.usbDeviceState ≠ .unattached) :
    (processTransaction libs commandId avr).hidReportDesc = avr.hidReportDesc ∧
      (processTransaction libs commandId avr).hidReportLength = avr.hidReportLength := by
  unfold processTransaction
  split
  next =>
    have hsize : setHidReportSize libs avr.rxIdx avr = avr := if_neg (fun h => hstate h.1)
    rw [hsize]
    exact ⟨rfl, rfl⟩
  next =>
    split
    next =>
      split
      next => exact ⟨rfl, rfl⟩
      next => exact ⟨rfl, rfl⟩
    next => exact ⟨rfl, rfl⟩

theorem processTransaction_usb (libs : AvrLibs) (commandId : BitVec 8) (avr : Avr) :
    (processTransaction libs commandId avr).usbDeviceState = avr.usbDeviceState := by
  unfold processTransaction
  split
  next =>
    simp only [setHidReportSize]
    split
    next => rfl
    next => rfl
  next =>
    split
    next =>
      split
      next => rfl
      next => rfl
    next => rfl

/-- The end of a command, after the byte it may still fetch. -/
theorem endCommand_same (libs : AvrLibs) (commandId : BitVec 8) (fetchedMore : Bool) (avr : Avr) :
    ∃ more, SameDescriptor avr more ∧ more.rxIdx = avr.rxIdx ∧
      (avr.numTx = 0 → more = avr) ∧
      SameDescriptor
        (if more.rxIdx ≠ 0 ∧ more.txIdx = more.numTx then processTransaction libs commandId more
          else more)
        (endCommand libs commandId fetchedMore avr) := by
  obtain ⟨hfetch, -, -, hidx, -⟩ := getNextTxByte_same libs avr
  cases fetchedMore with
  | true =>
    exact ⟨(getNextTxByte libs avr).2, hfetch, hidx, getNextTxByte_idle, ⟨rfl, rfl, rfl, rfl⟩⟩
  | false => exact ⟨avr, SameDescriptor.refl avr, rfl, fun _ => rfl, ⟨rfl, rfl, rfl, rfl⟩⟩

theorem endCommand_usb (libs : AvrLibs) (commandId : BitVec 8) (fetchedMore : Bool) (avr : Avr) :
    (endCommand libs commandId fetchedMore avr).usbDeviceState = avr.usbDeviceState := by
  obtain ⟨more, hmore, -, -, hend⟩ := endCommand_same libs commandId fetchedMore avr
  rw [hend.usb, ← hmore.usb]
  split
  next => exact processTransaction_usb libs commandId more
  next => rfl

theorem endCommand_attached (libs : AvrLibs) (commandId : BitVec 8) (fetchedMore : Bool)
    {avr : Avr} (hstate : avr.usbDeviceState ≠ .unattached) :
    (endCommand libs commandId fetchedMore avr).hidReportDesc = avr.hidReportDesc ∧
      (endCommand libs commandId fetchedMore avr).hidReportLength = avr.hidReportLength := by
  obtain ⟨more, hmore, -, -, hend⟩ := endCommand_same libs commandId fetchedMore avr
  obtain ⟨hdesc, hlength⟩ := processTransaction_attached libs commandId
    (show more.usbDeviceState ≠ .unattached by rwa [hmore.usb])
  rw [hend.desc, hend.length, ← hmore.desc, ← hmore.length]
  split
  next => exact ⟨hdesc, hlength⟩
  next => exact ⟨rfl, rfl⟩

theorem immutable_select (h : s.Immutable sizes descrNumber) {handshake commandId : BitVec 8}
    (hstep : step libs sizes descrNumber s (.select handshake commandId) = some t) :
    t.Immutable sizes descrNumber := by
  simp only [step] at hstep
  split at hstep
  next =>
    split at hstep
    next =>
      cases Option.some.inj hstep
      exact h
    next =>
      cases Option.some.inj hstep
      exact immutable_of_same (beginCommand_same libs commandId s.avr) rfl h
  next => cases hstep

theorem immutable_deselect (h : s.Immutable sizes descrNumber) {fetchedMore : Bool}
    (hstep : step libs sizes descrNumber s (.deselect fetchedMore) = some t) :
    t.Immutable sizes descrNumber := by
  simp only [step] at hstep
  split at hstep
  next commandId _ =>
    cases Option.some.inj hstep
    intro hattached
    rw [endCommand_usb] at hattached
    obtain ⟨hdesc, hlength⟩ := endCommand_attached libs commandId fetchedMore hattached
    rw [← h hattached, Avr.reportDescriptor_eq, Avr.reportDescriptor_eq, hdesc, hlength]
  next => cases hstep

/-- What a byte does to the descriptor. -/
theorem transceiveByte_desc (libs : AvrLibs) (value : BitVec 8) (avr : Avr) :
    (transceiveByte libs value avr).hidReportLength = avr.hidReportLength ∧
      (transceiveByte libs value avr).usbDeviceState = avr.usbDeviceState ∧
      (transceiveByte libs value avr).hidReportDesc =
        (if avr.rxData = .hidReportDesc ∧ avr.rxIdx < avr.numRx then
          Function.update avr.hidReportDesc (libs.DEVICE_CONTROL_REPORT_SIZE + avr.rxIdx) value
        else avr.hidReportDesc) := by
  obtain ⟨hfetch, hdata, hnum, hidx, -⟩ := getNextTxByte_same libs avr
  unfold transceiveByte
  by_cases hstores : avr.rxData = .hidReportDesc ∧ avr.rxIdx < avr.numRx
  · rw [if_pos hstores]
    unfold storeRxByte
    rw [if_pos (by rw [hnum, hidx]; exact hstores.2), hdata, hstores.1]
    exact ⟨hfetch.length, hfetch.usb, by simp only [hfetch.desc, hidx]⟩
  · rw [if_neg hstores]
    have hother : (getNextTxByte libs avr).2.rxData ≠ .hidReportDesc ∨
        (getNextTxByte libs avr).2.numRx ≤ (getNextTxByte libs avr).2.rxIdx := by
      rw [hdata, hnum, hidx]
      by_cases hrx : avr.rxData = .hidReportDesc
      · exact Or.inr (Nat.le_of_not_lt (fun hlt => hstores ⟨hrx, hlt⟩))
      · exact Or.inl hrx
    have hsame := hfetch.trans (storeRxByte_same libs value hother).1
    exact ⟨hsame.length, hsame.usb, hsame.desc⟩

theorem immutable_byte_iff (h : s.Immutable sizes descrNumber) {value : BitVec 8}
    (hstep : step libs sizes descrNumber s (.byte value) = some t) :
    t.Immutable sizes descrNumber ↔ Harmless libs s (.byte value) := by
  simp only [step] at hstep
  split at hstep
  next =>
    cases Option.some.inj hstep
    obtain ⟨hlength, husb, hdesc⟩ := transceiveByte_desc libs value s.avr
    unfold Immutable Harmless
    simp only [husb]
    refine forall_congr' (fun hattached => ?_)
    rw [← h hattached, Avr.reportDescriptor_eq, Avr.reportDescriptor_eq, hlength, hdesc]
    simp only [ReportDescriptor.mk.injEq, true_and]
    split
    next hstores =>
      rw [map_range_update]
      exact ⟨fun hsame _ _ => hsame, fun hsame => hsame hstores.1 hstores.2⟩
    next hother =>
      exact ⟨fun _ hrx hlt => absurd ⟨hrx, hlt⟩ hother, fun _ => rfl⟩
  next => cases hstep

theorem immutable_step_iff {a : SpiSlaveStep} (h : s.Immutable sizes descrNumber)
    (hstep : step libs sizes descrNumber s a = some t) :
    t.Immutable sizes descrNumber ↔ Harmless libs s a := by
  cases a with
  | usb state => exact iff_of_true (immutable_usb h hstep) trivial
  | select handshake commandId => exact iff_of_true (immutable_select h hstep) trivial
  | byte value => exact immutable_byte_iff h hstep
  | deselect fetchedMore => exact iff_of_true (immutable_deselect h hstep) trivial

/-- The descriptor stays what it was at the attachment exactly if no byte of a command that
was begun before it changes the descriptor. -/
theorem immutable_iff {trace : List (SpiSlave × SpiSlaveStep)}
    (run : Run (step libs sizes descrNumber) (reset libs) trace s) :
    AllStates (Immutable sizes descrNumber) trace s ↔ AllSteps (Harmless libs) trace :=
  run.allStates_iff_allSteps (fun hattached => absurd rfl hattached)
    (fun _ _ _ h hstep => immutable_step_iff h hstep)

def mouseDescriptors : DescriptorSizes := ⟨18, 34, 9, 4, 26, 32⟩

/-- The descriptor is sent and USB switched on; the device is attached and another descriptor
refused. -/
def describedAndAttached : List SpiSlaveStep :=
  [.select 0x42#8 0x08#8, .byte 0x05#8, .byte 0x01#8, .deselect true,
    .select 0x42#8 0x09#8, .byte 0x01#8, .deselect true, .usb .powered,
    .select 0x42#8 0x08#8, .byte 0x06#8, .deselect true, .usb .configured]

theorem immutable_describedAndAttached :
    ∃ (trace : List (SpiSlave × SpiSlaveStep)) (s : SpiSlave),
      Run (step mouseLibs mouseDescriptors 0#8) (reset mouseLibs) trace s ∧
      trace.map Prod.snd = describedAndAttached.reverse ∧
      AllStates (Immutable mouseDescriptors 0#8) trace s := by
  have replayed : (replay (guarded (Harmless mouseLibs) (step mouseLibs mouseDescriptors 0#8))
      (reset mouseLibs) describedAndAttached).isSome = true := by
    decide +kernel
  obtain ⟨trace, s, run, harmless, labels⟩ := exists_allowed_run replayed
  exact ⟨trace, s, run, labels, (immutable_iff run).mpr harmless⟩

/-- The device is attached after the second descriptor command has begun. -/
def attachedMeanwhile : List SpiSlaveStep :=
  [.select 0x42#8 0x08#8, .byte 0x05#8, .byte 0x01#8, .deselect true,
    .select 0x42#8 0x09#8, .byte 0x01#8, .deselect true,
    .select 0x42#8 0x08#8, .usb .powered, .byte 0x06#8]

theorem descriptor_changed_attachedMeanwhile :
    ∃ (trace : List (SpiSlave × SpiSlaveStep)) (s : SpiSlave),
      Run (step mouseLibs mouseDescriptors 0#8) (reset mouseLibs) trace s ∧
      trace.map Prod.snd = attachedMeanwhile.reverse ∧
      s.avr.usbDeviceState = .powered ∧ s.avr.reportDescriptor mouseDescriptors 0#8 ≠ s.atAttach ∧
      ¬ s.Immutable mouseDescriptors 0#8 := by
  obtain ⟨trace, s, run, labels, hs⟩ := exists_run_of_replay
    (p := fun (s : SpiSlave) => decide (s.avr.usbDeviceState = .powered ∧
      s.avr.reportDescriptor mouseDescriptors 0#8 ≠ s.atAttach))
    (show (replay (step mouseLibs mouseDescriptors 0#8) (reset mouseLibs) attachedMeanwhile).any _ =
      true by decide +kernel)
  obtain ⟨hstate, hchanged⟩ := of_decide_eq_true hs
  refine ⟨trace, s, run, labels, hstate, hchanged, ?_⟩
  intro immutable
  exact hchanged (immutable (by rw [hstate]; decide))

end SpiSlave

end MyMouse
