import MyMouse.LiveDescriptor

namespace MyMouse

open Memory Runs

/-- As the initializer of the descriptor buffer the control report is not empty and fits. -/
structure AvrLibs.Initializes (libs : AvrLibs) : Prop where
  nonempty : 0 < libs.DEVICE_CONTROL_REPORT_SIZE
  room : libs.DEVICE_CONTROL_REPORT_SIZE ≤ REPORT_DESCRIPTOR_MAX_SIZE

/-- The report descriptor of an application part, if one has been set. -/
def describedBy (libs : AvrLibs) : Option (List (BitVec 8)) → ReportDescriptor
  | none => ⟨0, []⟩
  | some application => ⟨libs.DEVICE_CONTROL_REPORT_SIZE + application.length,
      libs.deviceControlReport ++ application⟩

/-- The byte about to be stored goes to the application part of the descriptor or to the buffer
of the commands. -/
def Avr.StoreInside (libs : AvrLibs) (avr : Avr) : Prop :=
  match avr.rxData with
  | .hidReportDesc => libs.DEVICE_CONTROL_REPORT_SIZE + avr.rxIdx < REPORT_DESCRIPTOR_MAX_SIZE
  | .rxBuf => avr.rxIdx < 32
  | .null => False

/-- The byte about to be sent is one of the device id response. -/
def Avr.ReadInside (avr : Avr) : Prop :=
  match avr.txData with
  | .deviceIdResponse => avr.txIdx + 1 < deviceIdResponse.length
  | .null => False

/-- The buffer and its length hold the descriptor of the application part. -/
structure Described (libs : AvrLibs) (application : Option (List (BitVec 8)))
    (desc : Nat → BitVec 8) (length : Nat) : Prop where
  control : ∀ (i : Nat) (h : i < libs.deviceControlReport.length),
    desc i = libs.deviceControlReport[i]
  length : length = (describedBy libs application).hidReportLength
  bytes : ∀ app, application = some app → ∀ (i : Nat) (h : i < app.length),
    desc (libs.DEVICE_CONTROL_REPORT_SIZE + i) = app[i]

section Described

variable {libs : AvrLibs} {application : Option (List (BitVec 8))} {desc : Nat → BitVec 8}
  {length : Nat}

theorem described_reset (libs : AvrLibs) :
    Described libs none (Avr.reset libs).hidReportDesc (Avr.reset libs).hidReportLength := by
  refine ⟨?_, rfl, ?_⟩
  · intro i h
    exact List.getD_eq_getElem _ _ h
  · intro app happ
    cases happ

theorem Described.bytes_eq (h : Described libs application desc length) :
    (List.range length).map desc = (describedBy libs application).bytes := by
  rw [h.length]
  cases application with
  | none => rfl
  | some app =>
    apply List.ext_getElem
    · simp [describedBy, AvrLibs.DEVICE_CONTROL_REPORT_SIZE]
    · intro i hi _
      simp only [List.getElem_map, List.getElem_range, describedBy]
      by_cases hcontrol : i < libs.deviceControlReport.length
      · rw [List.getElem_append_left hcontrol]
        exact h.control i hcontrol
      · rw [List.getElem_append_right (by omega)]
        simp only [List.length_map, List.length_range, describedBy,
          AvrLibs.DEVICE_CONTROL_REPORT_SIZE] at hi
        have hbyte := h.bytes app rfl (i - libs.deviceControlReport.length) (by omega)
        rw [← hbyte]
        congr 1
        unfold AvrLibs.DEVICE_CONTROL_REPORT_SIZE
        omega

/-- Bytes written behind the control report are the new application part. -/
theorem Described.write (h : Described libs application desc length) (app : List (BitVec 8)) :
    Described libs (some app) (write desc libs.DEVICE_CONTROL_REPORT_SIZE app)
      (libs.DEVICE_CONTROL_REPORT_SIZE + app.length) := by
  refine ⟨?_, rfl, ?_⟩
  · intro i hi
    exact (write_of_lt hi).trans (h.control i hi)
  · intro app' happ i hi
    cases happ
    rw [write_getElem (by omega) (by omega)]
    congr 1
    omega

end Described

namespace SpiSlave

/-- The USB state does not change while a transaction is going on. -/
def UsbBetween (s : SpiSlave) : SpiSlaveStep → Prop
  | .usb _ => s.command = none
  | _ => True

instance (s : SpiSlave) (a : SpiSlaveStep) : Decidable (UsbBetween s a) :=
  match a with
  | .usb _ => inferInstanceAs (Decidable (_ = _))
  | .select _ _ | .byte _ | .deselect _ => inferInstanceAs (Decidable True)

structure Refines (libs : AvrLibs) (sizes : DescriptorSizes) (descrNumber : BitVec 8)
    (s : SpiSlave) : Prop where
  store : s.command ≠ none → s.avr.rxIdx < s.avr.numRx → s.avr.StoreInside libs
  read : s.command ≠ none → s.avr.txIdx < s.avr.numTx → s.avr.ReadInside
  idle : s.command = none → s.avr.Idle
  descriptor : s.command = none →
    s.avr.reportDescriptor sizes descrNumber = describedBy libs s.application

/-- What `prepare_response` makes of the pointers and counters, and what the bytes since have. -/
structure InCommand (libs : AvrLibs) (s : SpiSlave) (commandId : BitVec 8) : Prop where
  rx : commandId = 0x08#8 ∧ s.avr.usbDeviceState = .unattached ∧ s.avr.rxData = .hidReportDesc ∧
      s.avr.numRx = REPORT_DESCRIPTOR_MAX_SIZE - libs.DEVICE_CONTROL_REPORT_SIZE ∨
    ¬ (commandId = 0x08#8 ∧ s.avr.usbDeviceState = .unattached) ∧
      (s.avr.numRx = 0 ∨ s.avr.rxData = .rxBuf ∧ s.avr.numRx ≤ 32)
  tx : s.avr.numTx = 0 ∨
    commandId ≠ 0x08#8 ∧ s.avr.txData = .deviceIdResponse ∧ s.avr.numTx = 2
  rxIdx : s.avr.rxIdx = min s.received.length s.avr.numRx
  txIdx : s.avr.txIdx ≤ s.avr.numTx

structure Inv (libs : AvrLibs) (s : SpiSlave) : Prop where
  idle : s.command = none → s.avr.Idle
  inCommand : ∀ commandId, s.command = some commandId → InCommand libs s commandId
  described : ∃ base, Described libs s.application base s.avr.hidReportLength ∧
    s.avr.hidReportDesc = write base libs.DEVICE_CONTROL_REPORT_SIZE (s.stored libs)

variable {libs : AvrLibs} {sizes : DescriptorSizes} {descrNumber : BitVec 8} {s t : SpiSlave}

theorem stored_of_none (h : s.command = none) : s.stored libs = [] := by
  unfold stored
  rw [if_neg (by simp [h])]

theorem write_stored_of_none (h : s.command = none) (base : Nat → BitVec 8) :
    write base libs.DEVICE_CONTROL_REPORT_SIZE (s.stored libs) = base := by
  rw [stored_of_none h, write_nil]

theorem stored_of_nil (h : s.received = []) : s.stored libs = [] := by
  unfold stored
  rw [h, List.take_nil, ite_self]

theorem Inv.refines (h : Inv libs s) : Refines libs sizes descrNumber s where
  store := by
    intro hsome hlt
    obtain ⟨commandId, hcommand⟩ := Option.ne_none_iff_exists'.mp hsome
    rcases (h.inCommand commandId hcommand).rx with ⟨-, -, hdata, hnum⟩ | ⟨-, hzero | ⟨hdata, hle⟩⟩
    · unfold Avr.StoreInside
      rw [hdata]
      simp only
      omega
    · omega
    · unfold Avr.StoreInside
      rw [hdata]
      simp only
      omega
  read := by
    intro hsome hlt
    obtain ⟨commandId, hcommand⟩ := Option.ne_none_iff_exists'.mp hsome
    rcases (h.inCommand commandId hcommand).tx with hzero | ⟨-, hdata, hnum⟩
    · omega
    · unfold Avr.ReadInside
      rw [hdata]
      change s.avr.txIdx + 1 < 3
      omega
  idle := h.idle
  descriptor := by
    intro hnone
    obtain ⟨base, hbase, hdesc⟩ := h.described
    rw [write_stored_of_none hnone] at hdesc
    rw [Avr.reportDescriptor_eq, hdesc, hbase.bytes_eq, hbase.length]

/-- The counters and pointers a command starts with. -/
theorem inCommand_begin (initializes : libs.Initializes) (idle : s.avr.Idle)
    (commandId : BitVec 8) :
    InCommand libs { s with
      avr := beginCommand libs commandId s.avr
      command := some commandId
      received := [] } commandId := by
  obtain ⟨hpos, hroom⟩ := initializes
  have hsize : REPORT_DESCRIPTOR_MAX_SIZE - libs.DEVICE_CONTROL_REPORT_SIZE < 256 := by
    unfold REPORT_DESCRIPTOR_MAX_SIZE
    omega
  have hrx := idle.rxIdx
  have htx := idle.txIdx
  by_cases h06 : commandId = 0x06#8
  · subst h06
    exact ⟨Or.inr ⟨by simp, Or.inl idle.numRx⟩, Or.inr ⟨by decide, rfl, rfl⟩,
      by simpa [beginCommand, prepareResponse] using hrx,
      by simp [beginCommand, prepareResponse, htx]⟩
  by_cases h08 : commandId = 0x08#8
  · subst h08
    by_cases hstate : s.avr.usbDeviceState = .unattached
    · have hbegin : beginCommand libs 0x08#8 s.avr = { s.avr with
          numRx := REPORT_DESCRIPTOR_MAX_SIZE - libs.DEVICE_CONTROL_REPORT_SIZE
          rxData := .hidReportDesc
          txCrc := libs.crcIbuttonUpdate 0#8 0#8 } := by
        simp [beginCommand, prepareResponse, getHidReportDescriptorBuffer, hstate,
          Nat.mod_eq_of_lt hsize]
      rw [hbegin]
      exact ⟨Or.inl ⟨rfl, hstate, rfl, rfl⟩, Or.inl idle.numTx, by simp [hrx], by simp [htx]⟩
    · have hbegin : beginCommand libs 0x08#8 s.avr = { s.avr with
          numRx := 0
          txCrc := libs.crcIbuttonUpdate 0#8 0#8 } := by
        simp [beginCommand, prepareResponse, getHidReportDescriptorBuffer, hstate]
      rw [hbegin]
      exact ⟨Or.inr ⟨fun h => hstate h.2, Or.inl rfl⟩, Or.inl idle.numTx, by simp [hrx],
        by simp [htx]⟩
  have hother : ¬ (commandId = 0x08#8 ∧
      (beginCommand libs commandId s.avr).usbDeviceState = .unattached) := fun h => h08 h.1
  by_cases h09 : commandId = 0x09#8
  · subst h09
    exact ⟨Or.inr ⟨hother, Or.inr ⟨rfl, show 1 ≤ 32 by decide⟩⟩, Or.inl idle.numTx,
      by simpa [beginCommand, prepareResponse] using hrx,
      by simp [beginCommand, prepareResponse, htx]⟩
  by_cases h0A : commandId = 0x0A#8
  · subst h0A
    exact ⟨Or.inr ⟨hother, Or.inr ⟨rfl, Nat.le_refl 32⟩⟩, Or.inl idle.numTx,
      by simpa [beginCommand, prepareResponse] using hrx,
      by simp [beginCommand, prepareResponse, htx]⟩
  have hbegin : beginCommand libs commandId s.avr = { s.avr with
      txCrc := libs.crcIbuttonUpdate 0#8 0#8 } := by
    simp [beginCommand, prepareResponse, h06, h08, h09, h0A]
  rw [hbegin] at hother ⊢
  exact ⟨Or.inr ⟨hother, Or.inl idle.numRx⟩, Or.inl idle.numTx, by simp [hrx], by simp [htx]⟩

theorem inv_select (initializes : libs.Initializes) (h : Inv libs s)
    {handshake commandId : BitVec 8}
    (hstep : step libs sizes descrNumber s (.select handshake commandId) = some t) :
    Inv libs t := by
  simp only [step] at hstep
  split at hstep
  next hnone =>
    split at hstep
    next =>
      cases Option.some.inj hstep
      exact h
    next =>
      cases Option.some.inj hstep
      refine ⟨fun hcommand => (Option.some_ne_none _ hcommand).elim, ?_, ?_⟩
      · intro commandId' hcommand
        cases hcommand
        exact inCommand_begin initializes (h.idle hnone) commandId
      · obtain ⟨base, hbase, hdesc⟩ := h.described
        have hsame := beginCommand_same libs commandId s.avr
        refine ⟨base, by rw [hsame.length]; exact hbase, ?_⟩
        rw [stored_of_none hnone] at hdesc
        rw [stored_of_nil rfl, hsame.desc, hdesc]
  next => cases hstep

theorem stored_byte {value : BitVec 8} {avr : Avr}
    (husb : avr.usbDeviceState = s.avr.usbDeviceState) :
    ({ s with avr := avr, received := s.received ++ [value] } : SpiSlave).stored libs =
      (if s.command = some 0x08#8 ∧ s.avr.usbDeviceState = .unattached ∧
        s.received.length < REPORT_DESCRIPTOR_MAX_SIZE - libs.DEVICE_CONTROL_REPORT_SIZE then
        s.stored libs ++ [value] else s.stored libs) := by
  unfold stored
  simp only [husb]
  by_cases hdesc : s.command = some 0x08#8 ∧ s.avr.usbDeviceState = .unattached
  · rw [if_pos hdesc, if_pos hdesc]
    by_cases hroom : s.received.length <
        REPORT_DESCRIPTOR_MAX_SIZE - libs.DEVICE_CONTROL_REPORT_SIZE
    · rw [if_pos ⟨hdesc.1, hdesc.2, hroom⟩, List.take_of_length_le (by simp; omega),
        List.take_of_length_le (by omega)]
    · rw [if_neg (fun h => hroom h.2.2), List.take_append_of_le_length (by omega)]
  · rw [if_neg hdesc, if_neg hdesc, if_neg (fun h => hdesc ⟨h.1, h.2.1⟩)]

theorem stored_length (h : s.command = some 0x08#8) (hstate : s.avr.usbDeviceState = .unattached) :
    (s.stored libs).length =
      min s.received.length (REPORT_DESCRIPTOR_MAX_SIZE - libs.DEVICE_CONTROL_REPORT_SIZE) := by
  unfold stored
  rw [if_pos ⟨h, hstate⟩, List.length_take, Nat.min_comm]

theorem inCommand_byte {commandId value : BitVec 8} (h : InCommand libs s commandId) :
    InCommand libs { s with
      avr := transceiveByte libs value s.avr
      received := s.received ++ [value] } commandId := by
  obtain ⟨-, fdata, fnum, fidx, fnumTx⟩ := getNextTxByte_same libs s.avr
  obtain ⟨ftxData, ftxIdx⟩ := getNextTxByte_tx libs s.avr
  obtain ⟨snumTx, stxData, stxIdx, -⟩ := storeRxByte_tx libs value (getNextTxByte libs s.avr).2
  obtain ⟨snumRx, srxData, srxIdx⟩ := storeRxByte_rx libs value (getNextTxByte libs s.avr).2
  obtain ⟨-, husb, -⟩ := transceiveByte_desc libs value s.avr
  obtain ⟨rx, tx, rxIdx, txIdx⟩ := h
  refine ⟨?_, ?_, ?_, ?_⟩
  · simp only [husb]
    rw [transceiveByte, srxData, snumRx, fdata, fnum]
    exact rx
  · rw [transceiveByte, snumTx, stxData, fnumTx, ftxData]
    exact tx
  · rw [transceiveByte, srxIdx, snumRx, fidx, fnum, rxIdx, List.length_append,
      List.length_singleton]
    split
    next => omega
    next => omega
  · rw [transceiveByte, stxIdx, ftxIdx, snumTx, fnumTx]
    split
    next => omega
    next => exact txIdx

theorem not_described {commandId : BitVec 8} (hcommand : s.command = some commandId)
    (hother : ¬ (commandId = 0x08#8 ∧ s.avr.usbDeviceState = .unattached)) :
    ¬ (s.command = some 0x08#8 ∧ s.avr.usbDeviceState = .unattached) := by
  rintro ⟨h08, hstate⟩
  rw [hcommand] at h08
  exact hother ⟨Option.some.inj h08, hstate⟩

theorem inv_byte {value : BitVec 8} (h : Inv libs s)
    (hstep : step libs sizes descrNumber s (.byte value) = some t) : Inv libs t := by
  simp only [step] at hstep
  split at hstep
  next commandId hcommand =>
    cases Option.some.inj hstep
    have hin := h.inCommand commandId hcommand
    obtain ⟨hlength, husb, hdesc⟩ := transceiveByte_desc libs value s.avr
    refine ⟨?_, ?_, ?_⟩
    · intro hnone
      rw [hcommand] at hnone
      cases hnone
    · intro commandId' hcommand'
      rw [hcommand] at hcommand'
      cases hcommand'
      exact inCommand_byte hin
    · obtain ⟨base, hbase, hbefore⟩ := h.described
      refine ⟨base, by rw [hlength]; exact hbase, ?_⟩
      rw [stored_byte husb, hdesc, hbefore]
      rcases hin.rx with ⟨rfl, hstate, hdata, hnum⟩ | ⟨hother, hrx⟩
      · have hcount : (s.stored libs).length = _ := stored_length hcommand hstate
        have hidx := hin.rxIdx
        rw [hnum, ← hcount] at hidx
        by_cases hroom : s.received.length <
            REPORT_DESCRIPTOR_MAX_SIZE - libs.DEVICE_CONTROL_REPORT_SIZE
        · rw [if_pos ⟨hdata, by omega⟩, if_pos ⟨hcommand, hstate, hroom⟩, write_append, hidx,
            write_cons, write_nil]
        · rw [if_neg (fun hlt => by omega), if_neg (fun hlt => hroom hlt.2.2)]
      · rw [if_neg, if_neg]
        · rintro ⟨hdescriptor, hstate, -⟩
          exact not_described hcommand hother ⟨hdescriptor, hstate⟩
        · rintro ⟨hdata, hlt⟩
          rcases hrx with hzero | ⟨hbuf, -⟩
          · omega
          · rw [hdata] at hbuf
            cases hbuf
  next => cases hstep

theorem endCommand_idle (libs : AvrLibs) (commandId : BitVec 8) (fetchedMore : Bool) (avr : Avr) :
    (endCommand libs commandId fetchedMore avr).Idle :=
  ⟨rfl, rfl, rfl, rfl⟩

theorem processTransaction_other (libs : AvrLibs) {commandId : BitVec 8}
    (h : commandId ≠ 0x08#8) (avr : Avr) :
    (processTransaction libs commandId avr).hidReportDesc = avr.hidReportDesc ∧
      (processTransaction libs commandId avr).hidReportLength = avr.hidReportLength := by
  unfold processTransaction
  rw [if_neg h]
  split
  next =>
    split
    next => exact ⟨rfl, rfl⟩
    next => exact ⟨rfl, rfl⟩
  next => exact ⟨rfl, rfl⟩

/-- A descriptor command that has stored bytes ends with their number as the new size. -/
theorem endCommand_descriptor (initializes : libs.Initializes) (hcommand : s.command = some 0x08#8)
    (hin : InCommand libs s 0x08#8) (hstate : s.avr.usbDeviceState = .unattached)
    (fetchedMore : Bool) :
    (endCommand libs 0x08#8 fetchedMore s.avr).hidReportDesc = s.avr.hidReportDesc ∧
      (endCommand libs 0x08#8 fetchedMore s.avr).hidReportLength =
        (if s.stored libs = [] then s.avr.hidReportLength
        else libs.DEVICE_CONTROL_REPORT_SIZE + (s.stored libs).length) := by
  obtain ⟨more, -, -, hnothing, hend⟩ := endCommand_same libs 0x08#8 fetchedMore s.avr
  have hnumTx : s.avr.numTx = 0 := by
    rcases hin.tx with hzero | ⟨hne, -, -⟩
    · exact hzero
    · exact absurd rfl hne
  cases hnothing hnumTx
  have hcount : (s.stored libs).length = _ := stored_length hcommand hstate
  have hrx : s.avr.rxIdx = (s.stored libs).length := by
    rcases hin.rx with ⟨-, -, -, hnum⟩ | ⟨hother, -⟩
    · rw [hin.rxIdx, hnum, hcount]
    · exact absurd ⟨rfl, hstate⟩ hother
  have htx : s.avr.txIdx = s.avr.numTx := by
    have hle := hin.txIdx
    omega
  rw [hend.desc, hend.length]
  by_cases hnil : s.stored libs = []
  · rw [hnil, List.length_nil] at hrx
    rw [if_neg (fun h => h.1 hrx), if_pos hnil]
    exact ⟨rfl, rfl⟩
  · have hsome : s.avr.rxIdx ≠ 0 := by
      rw [hrx]
      exact fun hzero => hnil (List.length_eq_zero_iff.mp hzero)
    have hroom := initializes.room
    have hfits : s.avr.usbDeviceState = .unattached ∧
        libs.DEVICE_CONTROL_REPORT_SIZE + s.avr.rxIdx ≤ REPORT_DESCRIPTOR_MAX_SIZE :=
      ⟨hstate, by omega⟩
    have hprocess : processTransaction libs 0x08#8 s.avr = { s.avr with
        hidReportLength := libs.DEVICE_CONTROL_REPORT_SIZE + s.avr.rxIdx } := if_pos hfits
    rw [if_pos ⟨hsome, htx⟩, if_neg hnil, hprocess, hrx]
    exact ⟨rfl, rfl⟩

/-- Any other command leaves the descriptor and its size as they are. -/
theorem endCommand_other {commandId : BitVec 8}
    (hother : ¬ (commandId = 0x08#8 ∧ s.avr.usbDeviceState = .unattached)) (fetchedMore : Bool) :
    (endCommand libs commandId fetchedMore s.avr).hidReportDesc = s.avr.hidReportDesc ∧
      (endCommand libs commandId fetchedMore s.avr).hidReportLength = s.avr.hidReportLength := by
  obtain ⟨more, hmore, -, -, hend⟩ := endCommand_same libs commandId fetchedMore s.avr
  rw [hend.desc, hend.length, ← hmore.desc, ← hmore.length]
  split
  next =>
    by_cases h08 : commandId = 0x08#8
    · subst h08
      refine processTransaction_attached libs 0x08#8 ?_
      rw [hmore.usb]
      exact fun hstate => hother ⟨rfl, hstate⟩
    · exact processTransaction_other libs h08 more
  next => exact ⟨rfl, rfl⟩

/-- At its end a command sets the size of what it has stored in the descriptor, if that is
anything. -/
theorem endCommand_length (initializes : libs.Initializes) {commandId : BitVec 8}
    (hcommand : s.command = some commandId) (hin : InCommand libs s commandId)
    (fetchedMore : Bool) :
    (endCommand libs commandId fetchedMore s.avr).hidReportDesc = s.avr.hidReportDesc ∧
      (endCommand libs commandId fetchedMore s.avr).hidReportLength =
        (if s.stored libs = [] then s.avr.hidReportLength
        else libs.DEVICE_CONTROL_REPORT_SIZE + (s.stored libs).length) := by
  rcases hin.rx with ⟨rfl, hstate, -, -⟩ | ⟨hother, -⟩
  · exact endCommand_descriptor initializes hcommand hin hstate fetchedMore
  · have hnil : s.stored libs = [] := if_neg (not_described hcommand hother)
    rw [if_pos hnil]
    exact endCommand_other hother fetchedMore

theorem inv_deselect (initializes : libs.Initializes) {fetchedMore : Bool} (h : Inv libs s)
    (hstep : step libs sizes descrNumber s (.deselect fetchedMore) = some t) : Inv libs t := by
  simp only [step] at hstep
  split at hstep
  next commandId hcommand =>
    cases Option.some.inj hstep
    obtain ⟨hdesc, hlength⟩ :=
      endCommand_length initializes hcommand (h.inCommand commandId hcommand) fetchedMore
    refine ⟨fun _ => endCommand_idle libs commandId fetchedMore s.avr,
      fun _ hsome => (Option.some_ne_none _ hsome.symm).elim, ?_⟩
    obtain ⟨base, hbase, hbefore⟩ := h.described
    refine ⟨s.avr.hidReportDesc, ?_, ?_⟩
    · rw [hlength, hbefore]
      split
      next hnil =>
        rw [hnil, write_nil]
        exact hbase
      next => exact hbase.write _
    · exact hdesc.trans (write_stored_of_none rfl _).symm
  next => cases hstep

theorem inv_usb {state : UsbDeviceState} (h : Inv libs s) (hbetween : s.command = none)
    (hstep : step libs sizes descrNumber s (.usb state) = some t) : Inv libs t := by
  cases Option.some.inj hstep
  have hidle := h.idle hbetween
  refine ⟨fun _ => ⟨hidle.numTx, hidle.numRx, hidle.txIdx, hidle.rxIdx⟩, ?_, ?_⟩
  · intro commandId hcommand
    rw [hbetween] at hcommand
    cases hcommand
  · obtain ⟨base, hbase, hdesc⟩ := h.described
    rw [write_stored_of_none hbetween] at hdesc
    refine ⟨base, hbase, hdesc.trans (Eq.symm ?_)⟩
    apply write_stored_of_none
    exact hbetween

theorem inv_slaveStep (initializes : libs.Initializes) {a : SpiSlaveStep} (h : Inv libs s)
    (hbetween : UsbBetween s a) (hstep : step libs sizes descrNumber s a = some t) :
    Inv libs t := by
  cases a with
  | usb state => exact inv_usb h hbetween hstep
  | select handshake commandId => exact inv_select initializes h hstep
  | byte value => exact inv_byte h hstep
  | deselect fetchedMore => exact inv_deselect initializes h hstep

theorem inv_slaveReset (libs : AvrLibs) : Inv libs (SpiSlave.reset libs) := by
  refine ⟨fun _ => Avr.idle_reset libs, fun _ hsome => (Option.some_ne_none _ hsome.symm).elim,
    (Avr.reset libs).hidReportDesc, described_reset libs, ?_⟩
  exact (write_stored_of_none rfl _).symm

/-- In every run in which the USB state stays as it is during the transactions, no byte is
stored or read outside, every transaction starts idle, and the host is given the descriptor of
the last application part that was sent. -/
theorem spi_refines (initializes : libs.Initializes) {trace : List (SpiSlave × SpiSlaveStep)}
    (run : Run (step libs sizes descrNumber) (reset libs) trace s)
    (between : AllSteps UsbBetween trace) :
    AllStates (Refines libs sizes descrNumber) trace s := by
  have invariant := run.invariant between (inv_slaveReset libs)
    (fun _ _ _ h hbetween hstep => inv_slaveStep initializes h hbetween hstep)
  exact invariant.imp (fun _ h => h.refines)

theorem mouseLibs_initializes : mouseLibs.Initializes := ⟨by decide, by decide⟩

/-- A long descriptor and a shorter one, with a failed handshake, an unknown command, and the
device id after which the pointer to the descriptor is stale. -/
def rewrittenDescriptor : List SpiSlaveStep :=
  [.select 0x42#8 0x08#8, .byte 0x05#8, .byte 0x01#8, .byte 0x09#8, .deselect true,
    .select 0x41#8 0x08#8, .select 0x42#8 0x77#8, .byte 0xFF#8, .deselect false,
    .select 0x42#8 0x06#8, .byte 0xFF#8, .byte 0xFF#8, .byte 0xFF#8, .byte 0xFF#8, .deselect true,
    .select 0x42#8 0x08#8, .byte 0x06#8, .deselect false,
    .usb .powered, .select 0x42#8 0x08#8, .byte 0x07#8, .deselect false]

theorem spi_refines_rewrittenDescriptor :
    ∃ (trace : List (SpiSlave × SpiSlaveStep)) (s : SpiSlave),
      Run (step mouseLibs mouseDescriptors 0#8) (reset mouseLibs) trace s ∧
      trace.map Prod.snd = rewrittenDescriptor.reverse ∧
      AllStates (Refines mouseLibs mouseDescriptors 0#8) trace s := by
  have replayed : (replay (guarded UsbBetween (step mouseLibs mouseDescriptors 0#8))
      (reset mouseLibs) rewrittenDescriptor).isSome = true := by
    decide +kernel
  obtain ⟨trace, s, run, between, labels⟩ := exists_allowed_run replayed
  exact ⟨trace, s, run, labels, spi_refines mouseLibs_initializes run between⟩

end SpiSlave

end MyMouse
