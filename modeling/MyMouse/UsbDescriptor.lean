import MyMouse.AvrComm
import MyMouse.Memory

namespace MyMouse

open Memory

/-- The sizes the descriptor buffer and its one-byte length are laid out for. -/
structure AvrLibs.Fits (libs : AvrLibs) : Prop where
  nonempty : 0 < libs.DEVICE_CONTROL_REPORT_SIZE
  room : libs.DEVICE_CONTROL_REPORT_SIZE + HID_REPORT_MAP_SIZE ≤ REPORT_DESCRIPTOR_MAX_SIZE

/-- The descriptor is the control report followed by the whole report map. -/
structure UsbInit.Complete (libs : AvrLibs) (init : UsbInit) : Prop where
  length : init.hidReportLength = libs.DEVICE_CONTROL_REPORT_SIZE + HID_REPORT_MAP_SIZE
  application : ∀ (i : Nat) (h : i < hidReportMap.length),
    init.hidReportDesc (libs.DEVICE_CONTROL_REPORT_SIZE + i) = hidReportMap[i]

def CommandOutcome.Delivers (size : Nat) : CommandOutcome → Prop
  | .accepted => True
  | .busy => False
  | .failed _ none => False
  | .failed _ (some clocked) => size ≤ clocked

instance (size : Nat) (o : CommandOutcome) : Decidable (o.Delivers size) :=
  match o with
  | .accepted => inferInstanceAs (Decidable True)
  | .busy => inferInstanceAs (Decidable False)
  | .failed _ none => inferInstanceAs (Decidable False)
  | .failed _ (some _) => inferInstanceAs (Decidable (_ ≤ _))

variable {libs : AvrLibs} {avr : Avr} {data : List (BitVec 8)}

structure SameDescriptor (a b : Avr) : Prop where
  desc : b.hidReportDesc = a.hidReportDesc
  length : b.hidReportLength = a.hidReportLength
  usb : b.usbDeviceState = a.usbDeviceState
  inits : b.usbInits = a.usbInits

theorem SameDescriptor.refl (a : Avr) : SameDescriptor a a := ⟨rfl, rfl, rfl, rfl⟩

theorem SameDescriptor.trans {a b c : Avr} (hab : SameDescriptor a b) (hbc : SameDescriptor b c) :
    SameDescriptor a c :=
  ⟨hbc.desc.trans hab.desc, hbc.length.trans hab.length, hbc.usb.trans hab.usb,
    hbc.inits.trans hab.inits⟩

theorem getNextTxByte_same (libs : AvrLibs) (avr : Avr) :
    SameDescriptor avr (getNextTxByte libs avr).2 ∧
      (getNextTxByte libs avr).2.rxData = avr.rxData ∧ (getNextTxByte libs avr).2.numRx = avr.numRx ∧
      (getNextTxByte libs avr).2.rxIdx = avr.rxIdx ∧ (getNextTxByte libs avr).2.numTx = avr.numTx := by
  unfold getNextTxByte
  split <;> exact ⟨⟨rfl, rfl, rfl, rfl⟩, rfl, rfl, rfl, rfl⟩

theorem getNextTxByte_idle (h : avr.numTx = 0) : (getNextTxByte libs avr).2 = avr := by
  unfold getNextTxByte
  rw [if_neg (by omega)]

/-- The descriptor buffer is written to only while `rx_data` points to it. -/
theorem storeRxByte_same (libs : AvrLibs) (value : BitVec 8)
    (h : avr.rxData ≠ .hidReportDesc ∨ avr.numRx ≤ avr.rxIdx) :
    SameDescriptor avr (storeRxByte libs value avr) ∧
      (storeRxByte libs value avr).rxData = avr.rxData ∧
      (storeRxByte libs value avr).numRx = avr.numRx ∧
      avr.rxIdx ≤ (storeRxByte libs value avr).rxIdx := by
  unfold storeRxByte
  split
  next hlt =>
    rcases h with hdata | hfull
    · cases hrx : avr.rxData with
      | hidReportDesc => exact absurd hrx hdata
      | rxBuf => exact ⟨⟨rfl, rfl, rfl, rfl⟩, rfl, rfl, Nat.le_succ _⟩
      | null => exact ⟨⟨rfl, rfl, rfl, rfl⟩, hrx, rfl, Nat.le_succ _⟩
    · omega
  next => exact ⟨SameDescriptor.refl avr, rfl, rfl, Nat.le_refl _⟩

theorem transceiveBytes_same (h : avr.rxData ≠ .hidReportDesc ∨ avr.numRx ≤ avr.rxIdx) :
    SameDescriptor avr (transceiveBytes libs data avr).2 := by
  induction data generalizing avr with
  | nil => exact SameDescriptor.refl avr
  | cons value rest ih =>
    obtain ⟨hfetch, fdata, fnum, fidx, _⟩ := getNextTxByte_same libs avr
    rw [← fdata, ← fnum, ← fidx] at h
    obtain ⟨hstore, sdata, snum, sidx⟩ := storeRxByte_same libs value h
    have hrest : (storeRxByte libs value (getNextTxByte libs avr).2).rxData ≠ .hidReportDesc ∨
        (storeRxByte libs value (getNextTxByte libs avr).2).numRx ≤
          (storeRxByte libs value (getNextTxByte libs avr).2).rxIdx := by
      rw [sdata, snum]
      rcases h with hdata | hfull
      · exact Or.inl hdata
      · exact Or.inr (by omega)
    exact (hfetch.trans hstore).trans (ih hrest)

/-- What the loop stores of a payload that fits, with nothing to transmit. -/
theorem transceiveBytes_desc (libs : AvrLibs) (avr : Avr) (data : List (BitVec 8))
    (hdata : avr.rxData = .hidReportDesc) (htx : avr.numTx = 0)
    (hroom : avr.rxIdx + data.length ≤ avr.numRx) :
    (transceiveBytes libs data avr).2 = { avr with
      hidReportDesc := write avr.hidReportDesc (libs.DEVICE_CONTROL_REPORT_SIZE + avr.rxIdx) data
      rxIdx := avr.rxIdx + data.length } := by
  induction data generalizing avr with
  | nil => simp [transceiveBytes]
  | cons value rest ih =>
    simp only [List.length_cons] at hroom
    have hstore : storeRxByte libs value avr = { avr with
        hidReportDesc := Function.update avr.hidReportDesc
          (libs.DEVICE_CONTROL_REPORT_SIZE + avr.rxIdx) value
        rxIdx := avr.rxIdx + 1 } := by
      unfold storeRxByte
      rw [if_pos (by omega), hdata]
    have hstep : (transceiveBytes libs (value :: rest) avr).2 =
        (transceiveBytes libs rest (storeRxByte libs value avr)).2 := by
      change (transceiveBytes libs rest (storeRxByte libs value (getNextTxByte libs avr).2)).2 = _
      rw [getNextTxByte_idle htx]
    rw [hstep, hstore]
    refine (ih _ ?_ ?_ ?_).trans ?_
    · exact hdata
    · exact htx
    · simp only
      omega
    · rw [write_cons]
      simp only [List.length_cons, Nat.add_assoc, Nat.add_comm 1]

/-- The end of a command, once its bytes have been stored and nothing is left to transmit. -/
theorem spiCommand_eq (fetchedMore : Bool) {commandId first : BitVec 8} {prepared stored : Avr}
    (hprepare : prepareResponse libs commandId avr = (first, prepared))
    (hbytes : (transceiveBytes libs data
      { prepared with txCrc := libs.crcIbuttonUpdate 0#8 first }).2 = stored)
    (htx : stored.numTx = 0) :
    SameDescriptor
      (if stored.rxIdx ≠ 0 ∧ stored.txIdx = stored.numTx then processTransaction libs commandId stored
        else stored)
      (spiCommand libs commandId data fetchedMore avr).2 := by
  have hmore : (if fetchedMore then (getNextTxByte libs stored).2 else stored) = stored := by
    rw [getNextTxByte_idle htx, ite_self]
  simp only [spiCommand, hprepare, hbytes, hmore]
  exact ⟨rfl, rfl, rfl, rfl⟩

/-- The report descriptor command, with as much of the payload as reaches the AVR. -/
theorem spiCommand_descriptor (fits : libs.Fits) (idle : avr.Idle)
    (hstate : avr.usbDeviceState = .unattached) (hlen : data.length ≤ HID_REPORT_MAP_SIZE)
    {fetchedMore : Bool} {after : Avr}
    (h : (spiCommand libs 0x08#8 data fetchedMore avr).2 = after) :
    after.hidReportDesc = write avr.hidReportDesc libs.DEVICE_CONTROL_REPORT_SIZE data ∧
      after.hidReportLength =
        (if data = [] then avr.hidReportLength else libs.DEVICE_CONTROL_REPORT_SIZE + data.length) ∧
      after.usbInits = avr.usbInits := by
  obtain ⟨hpos, hroom⟩ := fits
  unfold HID_REPORT_MAP_SIZE REPORT_DESCRIPTOR_MAX_SIZE at *
  have hsize : (256 - libs.DEVICE_CONTROL_REPORT_SIZE) % 2 ^ 8 =
      256 - libs.DEVICE_CONTROL_REPORT_SIZE := Nat.mod_eq_of_lt (by omega)
  have hprepare : prepareResponse libs 0x08#8 avr = (0#8, { avr with
      numRx := 256 - libs.DEVICE_CONTROL_REPORT_SIZE, rxData := .hidReportDesc }) := by
    unfold prepareResponse getHidReportDescriptorBuffer REPORT_DESCRIPTOR_MAX_SIZE
    rw [if_neg (by decide), if_pos rfl, if_pos hstate, hsize]
  have hbytes := transceiveBytes_desc libs { avr with
    numRx := 256 - libs.DEVICE_CONTROL_REPORT_SIZE, rxData := .hidReportDesc,
    txCrc := libs.crcIbuttonUpdate 0#8 0#8 } data rfl idle.numTx
    (by simp only [idle.rxIdx]; omega)
  have hsame := spiCommand_eq fetchedMore hprepare hbytes idle.numTx
  rw [h] at hsame
  simp only [idle.rxIdx, idle.txIdx, idle.numTx, Nat.zero_add, Nat.add_zero, and_true] at hsame
  by_cases hnil : data = []
  · subst hnil
    rw [if_neg (by simp)] at hsame
    exact ⟨hsame.desc, by rw [if_pos rfl]; exact hsame.length, hsame.inits⟩
  · have hdata : data.length ≠ 0 := fun hzero => hnil (List.length_eq_zero_iff.mp hzero)
    have hfull : libs.DEVICE_CONTROL_REPORT_SIZE + data.length ≤ REPORT_DESCRIPTOR_MAX_SIZE := by
      unfold REPORT_DESCRIPTOR_MAX_SIZE
      omega
    rw [if_pos hdata] at hsame
    simp only [processTransaction, setHidReportSize, if_true, hstate, true_and, hfull] at hsame
    exact ⟨hsame.desc, by rw [if_neg hnil]; exact hsame.length, hsame.inits⟩

/-- The USB command calls `USB_Init` when its byte reaches the AVR. -/
theorem spiCommand_enable (libs : AvrLibs) (idle : avr.Idle) (k : Nat) (fetchedMore : Bool) :
    let after := (spiCommand libs 0x09#8 (AvrCommand.enableUsb.payload.take k) fetchedMore avr).2
    after.usbInits =
      if k = 0 then avr.usbInits else ⟨avr.hidReportLength, avr.hidReportDesc⟩ :: avr.usbInits := by
  have hprepare : prepareResponse libs 0x09#8 avr =
      (0#8, { avr with rxData := .rxBuf, numRx := 1 }) := rfl
  cases k with
  | zero =>
    have hbytes : (transceiveBytes libs [] { avr with
        rxData := .rxBuf, numRx := 1, txCrc := libs.crcIbuttonUpdate 0#8 0#8 }).2 =
        { avr with rxData := .rxBuf, numRx := 1, txCrc := libs.crcIbuttonUpdate 0#8 0#8 } := rfl
    have hsame := spiCommand_eq fetchedMore hprepare hbytes idle.numTx
    rw [if_neg (by simp [idle.rxIdx])] at hsame
    exact hsame.inits
  | succ k =>
    have hbytes : (transceiveBytes libs [0x01#8] { avr with
        rxData := .rxBuf, numRx := 1, txCrc := libs.crcIbuttonUpdate 0#8 0#8 }).2 =
        { avr with rxData := .rxBuf, numRx := 1, txCrc := libs.crcIbuttonUpdate 0#8 0#8,
                   rxBuf := Function.update avr.rxBuf 0 0x01#8, rxIdx := 1 } := by
      simp [transceiveBytes, getNextTxByte, storeRxByte, idle.numTx, idle.rxIdx]
    have hpayload : AvrCommand.enableUsb.payload.take (k + 1) = [0x01#8] := by
      simp [AvrCommand.payload]
    rw [hpayload]
    have hsame := spiCommand_eq fetchedMore hprepare hbytes idle.numTx
    simp [idle.txIdx, idle.numTx, processTransaction, usbInit] at hsame
    exact hsame.inits

theorem SameDescriptor.ite {a b c : Avr} {p : Prop} [Decidable p] (hb : SameDescriptor a b)
    (hc : SameDescriptor a c) : SameDescriptor a (if p then b else c) := by
  split
  next => exact hb
  next => exact hc

theorem spiCommand_same (idle : avr.Idle) {commandId : BitVec 8} {fetchedMore : Bool}
    (hcommand : commandId = 0x06#8 ∨ commandId = 0x0A#8) :
    SameDescriptor avr (spiCommand libs commandId data fetchedMore avr).2 := by
  have hprocess : ∀ a, processTransaction libs commandId a = a := by
    intro a
    rcases hcommand with rfl | rfl <;> rfl
  generalize hprepare : prepareResponse libs commandId avr = prepared
  have hprepared : SameDescriptor avr prepared.2 ∧
      (prepared.2.rxData ≠ .hidReportDesc ∨ prepared.2.numRx ≤ prepared.2.rxIdx) := by
    rw [← hprepare]
    rcases hcommand with rfl | rfl
    · exact ⟨⟨rfl, rfl, rfl, rfl⟩, Or.inr (Nat.le_of_eq (idle.numRx.trans idle.rxIdx.symm))⟩
    · exact ⟨⟨rfl, rfl, rfl, rfl⟩, Or.inl (by simp [prepareResponse])⟩
  have hcrc : SameDescriptor avr
      { prepared.2 with txCrc := libs.crcIbuttonUpdate 0#8 prepared.1 } :=
    ⟨hprepared.1.desc, hprepared.1.length, hprepared.1.usb, hprepared.1.inits⟩
  have hbytes : SameDescriptor avr (transceiveBytes libs data
      { prepared.2 with txCrc := libs.crcIbuttonUpdate 0#8 prepared.1 }).2 :=
    hcrc.trans (transceiveBytes_same hprepared.2)
  have hmore := SameDescriptor.ite (p := fetchedMore = true)
    (hbytes.trans (getNextTxByte_same libs _).1) hbytes
  simp only [spiCommand, hprepare, hprocess, ite_self]
  exact ⟨hmore.desc, hmore.length, hmore.usb, hmore.inits⟩

theorem avrTransceive_idle (libs : AvrLibs) (idle : avr.Idle) (command : AvrCommand) (run : CommandRun) :
    (avrTransceive libs command run avr).2.Idle := by
  unfold avrTransceive spiTask
  split
  next =>
    split
    next => exact idle
    next =>
      split
      next => exact idle
      next => exact spiCommand_idle libs _ _ _ _
  next => exact idle

theorem avrTransceive_same (idle : avr.Idle) {command : AvrCommand} (run : CommandRun)
    (hcommand : command = .verifyAvrId ∨ command = .sendReport) :
    SameDescriptor avr (avrTransceive libs command run avr).2 := by
  unfold avrTransceive spiTask
  split
  next =>
    split
    next => exact SameDescriptor.refl avr
    next =>
      split
      next => exact SameDescriptor.refl avr
      next =>
        refine spiCommand_same idle ?_
        rcases hcommand with rfl | rfl
        · exact Or.inl rfl
        · exact Or.inr rfl
  next => exact SameDescriptor.refl avr

theorem verifyAvrId_avr (run : CommandRun) :
    (verifyAvrId libs run avr).2 = (avrTransceive libs .verifyAvrId run avr).2 := by
  unfold verifyAvrId
  cases run.outcome <;> rfl

theorem transceive_keeps_inits (libs : AvrLibs) (idle : avr.Idle) {command : AvrCommand} (run : CommandRun)
    (usb : UsbDeviceState) (hcommand : command = .verifyAvrId ∨ command = .sendReport) :
    (avrTransceive libs command run { avr with usbDeviceState := usb }).2.usbInits = avr.usbInits ∧
      (avrTransceive libs command run { avr with usbDeviceState := usb }).2.Idle := by
  have hidle : ({ avr with usbDeviceState := usb } : Avr).Idle :=
    ⟨idle.numTx, idle.numRx, idle.txIdx, idle.rxIdx⟩
  exact ⟨(avrTransceive_same hidle run hcommand).inits, avrTransceive_idle libs hidle command run⟩

theorem serveLoop_inits (idle : avr.Idle) (turns : List LoopTurn) :
    (serveLoop libs turns avr).usbInits = avr.usbInits := by
  induction turns generalizing avr with
  | nil => rfl
  | cons turn rest ih =>
    obtain ⟨hreport, ireport⟩ :=
      transceive_keeps_inits libs idle turn.report turn.usbAtReport (Or.inr rfl)
    obtain ⟨hverify, iverify⟩ :=
      transceive_keeps_inits libs ireport turn.verify turn.usbAtVerify (Or.inl rfl)
    rw [← verifyAvrId_avr] at hverify iverify
    simp only [serveLoop]
    split
    next => rw [ih iverify, hverify, hreport]
    next => rw [hverify, hreport]

theorem avrTransceive_cases (libs : AvrLibs) (command : AvrCommand) (run : CommandRun) (avr : Avr) :
    ((avrTransceive libs command run avr).2 = avr ∧ ∀ size, ¬ run.outcome.Delivers size) ∨
    ∃ k, (avrTransceive libs command run avr).2 =
        (spiCommand libs command.commandId (command.payload.take k) run.fetchedMore avr).2 ∧
      ∀ size ≤ command.payload.length, (run.outcome.Delivers size ↔ size ≤ k) := by
  have hid : command.commandId ≠ 0#8 := by
    cases command <;> decide
  unfold avrTransceive
  cases run.outcome with
  | accepted =>
    refine Or.inr ⟨command.payload.length, ?_, fun size hsize => ⟨fun _ => hsize, fun _ => trivial⟩⟩
    simp [CommandOutcome.received, spiTask, hid]
  | busy => exact Or.inl ⟨rfl, fun _ h => h⟩
  | failed err clocked =>
    cases clocked with
    | none => exact Or.inl ⟨rfl, fun _ h => h⟩
    | some k =>
      refine Or.inr ⟨k, ?_, fun size _ => Iff.rfl⟩
      simp [CommandOutcome.received, spiTask, hid]

/-- What `USB_Init` would find after the first command of the loop. -/
theorem descriptor_complete_iff (fits : libs.Fits) (run : CommandRun) {avr : Avr}
    (havr : (avrTransceive libs .sendReportDescriptor run (Avr.reset libs)).2 = avr) :
    avr.usbInits = [] ∧ (UsbInit.Complete libs ⟨avr.hidReportLength, avr.hidReportDesc⟩ ↔
      run.outcome.Delivers HID_REPORT_MAP_SIZE) := by
  have hmap := hidReportMap_length
  have hpos : 0 < HID_REPORT_MAP_SIZE := by decide
  rcases avrTransceive_cases libs .sendReportDescriptor run (Avr.reset libs) with
    ⟨hsame, hnone⟩ | ⟨k, hcommand, hdelivers⟩
  · rw [← havr, hsame]
    refine ⟨rfl, iff_of_false ?_ (hnone _)⟩
    rintro ⟨hlength, _⟩
    change 0 = _ at hlength
    omega
  · rw [havr] at hcommand
    rw [hdelivers HID_REPORT_MAP_SIZE (Nat.le_of_eq hmap.symm)]
    have htake : (hidReportMap.take k).length = min k HID_REPORT_MAP_SIZE := by
      rw [List.length_take, hmap]
    obtain ⟨hdesc, hlength, hinits⟩ := spiCommand_descriptor fits (Avr.idle_reset libs) rfl
      (show (hidReportMap.take k).length ≤ HID_REPORT_MAP_SIZE by omega) hcommand.symm
    refine ⟨hinits, ?_, ?_⟩
    · rintro ⟨hcomplete, _⟩
      by_contra hshort
      change avr.hidReportLength = _ at hcomplete
      rw [hcomplete] at hlength
      split at hlength
      next =>
        change _ = 0 at hlength
        omega
      next => omega
    · intro hfull
      have hwhole : hidReportMap.take k = hidReportMap :=
        List.take_of_length_le (by omega)
      rw [hwhole] at hdesc hlength
      rw [if_neg (by decide), hmap] at hlength
      refine ⟨hlength, fun i hi => ?_⟩
      simp only [hdesc]
      rw [write_getElem (by omega) (by omega)]
      simp

/-- USB is enabled with a complete descriptor only, exactly if the whole descriptor reaches
the AVR whenever the byte of the USB command does. -/
theorem usbInits_complete_iff (fits : libs.Fits) (outcomes : LoopOutcomes) :
    (∀ init ∈ (avrCommLoop libs outcomes (Avr.reset libs)).usbInits, init.Complete libs) ↔
      (outcomes.enable.outcome.Delivers 1 →
        outcomes.descriptor.outcome.Delivers HID_REPORT_MAP_SIZE) := by
  obtain ⟨hinits, hcomplete⟩ := descriptor_complete_iff fits outcomes.descriptor rfl
  have hidle := avrTransceive_idle libs (Avr.idle_reset libs) .sendReportDescriptor
    outcomes.descriptor
  rw [← hcomplete]
  simp only [avrCommLoop]
  generalize (avrTransceive libs .sendReportDescriptor outcomes.descriptor (Avr.reset libs)).2 = avr
    at *
  rw [serveLoop_inits (avrTransceive_idle libs hidle .enableUsb outcomes.enable)]
  rcases avrTransceive_cases libs .enableUsb outcomes.enable avr with
    ⟨hsame, hnone⟩ | ⟨k, hcommand, hdelivers⟩
  · rw [hsame, hinits]
    exact ⟨fun _ h => absurd h (hnone 1), fun _ init hmem => by simp at hmem⟩
  · rw [hcommand, hdelivers 1 (by decide)]
    have henable := spiCommand_enable libs hidle k outcomes.enable.fetchedMore
    simp only at henable
    rw [show AvrCommand.enableUsb.commandId = 0x09#8 from rfl, henable, hinits]
    by_cases hzero : k = 0
    · simp [hzero]
    · simp [hzero, Nat.one_le_iff_ne_zero]

/-- The CRC of avr-libc in its documented C form, and the items of the control report. -/
def mouseLibs : AvrLibs :=
  { crcIbuttonUpdate := updateCrc
    deviceControlReport :=
      [0x06, 0xDC, 0xFF, 0xA1, 0x01, 0x85, 0x08, 0x15, 0x00, 0x25, 0xFF, 0x75, 0x08, 0x96, 0x01, 0x00,
        0x91, 0x02, 0xC0, 0x85, 0x00] }

theorem mouseLibs_fits : mouseLibs.Fits := ⟨by decide, by decide⟩

/-- Every command is accepted; the host configures the device meanwhile. -/
def acceptedOutcomes : LoopOutcomes :=
  { descriptor := ⟨.accepted, true⟩
    enable := ⟨.accepted, true⟩
    turns := [⟨⟨.accepted, true⟩, ⟨.accepted, true⟩, .powered, .configured⟩] }

theorem usbInits_complete_acceptedOutcomes :
    mouseLibs.Fits ∧
    ∀ init ∈ (avrCommLoop mouseLibs acceptedOutcomes (Avr.reset mouseLibs)).usbInits,
      init.Complete mouseLibs :=
  ⟨mouseLibs_fits, (usbInits_complete_iff mouseLibs_fits acceptedOutcomes).mpr (fun _ => trivial)⟩

/-- The AVR is busy when the report descriptor is sent. -/
def busyDescriptor : LoopOutcomes :=
  { acceptedOutcomes with descriptor := ⟨.busy, true⟩ }

theorem usbInit_incomplete_busyDescriptor :
    ∃ init ∈ (avrCommLoop mouseLibs busyDescriptor (Avr.reset mouseLibs)).usbInits,
      init.hidReportLength = 0 ∧ ¬ init.Complete mouseLibs := by
  have hlengths : (avrCommLoop mouseLibs busyDescriptor (Avr.reset mouseLibs)).usbInits.map
      UsbInit.hidReportLength = [0] := by
    decide +kernel
  obtain ⟨init, hmem, hzero⟩ := List.mem_map.mp (by rw [hlengths]; exact List.mem_singleton_self 0)
  refine ⟨init, hmem, hzero, fun complete => ?_⟩
  have hlength := complete.length
  rw [hzero] at hlength
  exact absurd hlength (by decide)

end MyMouse
