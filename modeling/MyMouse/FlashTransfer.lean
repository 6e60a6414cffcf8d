import MyMouse.AvrFlashing
import MyMouse.Bootloader
import Mathlib.Data.List.Forall2

namespace MyMouse

open Memory

structure FlashPagePacket where
  reportId : BitVec 8
  address : BitVec 16
  data : PageBytes FLASH_PAGE_SIZE_BYTES

def FlashPagePacket.toBytes (packet : FlashPagePacket) : List (BitVec 8) :=
  packet.reportId :: packet.address.setWidth 8 :: (packet.address >>> 8).setWidth 8 ::
    packet.data.toList

/-- `page_index * FLASH_PAGE_SIZE_BYTES` of `u16`, which panics on overflow. -/
def pageAddressOf (pageIndex : Nat) : Outcome (BitVec 16) :=
  if pageIndex * FLASH_PAGE_SIZE_BYTES < 2 ^ 16 then
    .ok (BitVec.ofNat 16 (pageIndex * FLASH_PAGE_SIZE_BYTES))
  else .panic

/-- The reports `flash` writes to the device when every write succeeds. -/
def flash : FlashData → Outcome (List (List (BitVec 8)))
  | [] => .ok []
  | (pageIndex, pageContent) :: rest => do
    let address ← pageAddressOf pageIndex
    let reports ← flash rest
    pure (FlashPagePacket.toBytes ⟨0#8, address, pageContent⟩ :: reports)

/-- The data stage of a report: hidapi strips the report id, and the host controller sends
what is left in packets of whole words. -/
structure DataStage (packets : List (List (BitVec 8))) (report : List (BitVec 8)) : Prop where
  flatten : packets.flatten = report.tail
  even : ∀ packet ∈ packets, packet.length % 2 = 0
  nonempty : ∀ packet ∈ packets, packet ≠ []

section Page

variable {ε : Type} {ep : Endpoint ε} {outPackets : ε → List (List (BitVec 8))} {e : ε}
  {bytes : List (BitVec 8)} {pageAddress : BitVec 16}

theorem wordOffset (halign : pageAddress.toNat % 128 = 0) {k : Nat} (hk : k < 64) :
    (pageAddress + BitVec.ofNat 16 k <<< 1).toNat % SPM_PAGESIZE / 2 * 2 = 2 * k := by
  have hshift : (BitVec.ofNat 16 k <<< 1).toNat = 2 * k := by
    rw [BitVec.toNat_shiftLeft, BitVec.toNat_ofNat, Nat.shiftLeft_eq]
    omega
  rw [BitVec.toNat_add, hshift]
  unfold SPM_PAGESIZE
  omega

theorem setWidth_low (lo hi : BitVec 8) : (hi ++ lo).setWidth 8 = lo := by
  ext i hlt
  rw [BitVec.getElem_setWidth, BitVec.getLsbD_append, if_pos hlt, BitVec.getLsbD_eq_getElem]

theorem setWidth_high (lo hi : BitVec 8) : ((hi ++ lo) >>> 8).setWidth 8 = hi := by
  ext i hlt
  rw [BitVec.getElem_setWidth, BitVec.getLsbD_ushiftRight, BitVec.getLsbD_append,
    if_neg (by omega), Nat.add_sub_cancel_left, BitVec.getLsbD_eq_getElem]

/-- The loop over the words of a page fills the page buffer with what comes next. -/
theorem fillWords_rest {rest : List (BitVec 8)} (documented : ep.Documented outPackets)
    (halign : pageAddress.toNat % 128 = 0) (n k : Nat) (hk : k + n ≤ 64)
    (hbytes : bytes.length = 2 * n) (h : Streams outPackets e (bytes ++ rest)) (flash : BootFlash) :
    ∃ e', (List.range' k n).foldlM (fillWord ep pageAddress) (flash, e) = some
        ({ flash with pageBuffer := write flash.pageBuffer (2 * k) bytes }, e') ∧
      Streams outPackets e' rest := by
  induction n generalizing k bytes e flash with
  | zero =>
    have hnil : bytes = [] := List.length_eq_zero_iff.mp (by omega)
    subst hnil
    exact ⟨e, by simp, h⟩
  | succ n ih =>
    match bytes, hbytes with
    | lo :: hi :: bytes, hbytes =>
      obtain ⟨e', hfill, hstream⟩ := fillWord_ok documented h flash pageAddress k
      obtain ⟨e'', hrest, hend⟩ := ih (k + 1) (by omega)
        (by simp only [List.length_cons] at hbytes; omega) hstream
        (flash.pageFill (pageAddress + BitVec.ofNat 16 k <<< 1) (hi ++ lo))
      refine ⟨e'', ?_, hend⟩
      rw [List.range'_succ, List.foldlM_cons, hfill]
      refine hrest.trans ?_
      simp only [BootFlash.pageFill, wordOffset halign (show k < 64 by omega), setWidth_low,
        setWidth_high]
      rw [show lo :: hi :: bytes = [lo, hi] ++ bytes from rfl, write_append]
      rfl

/-- Programming a page takes the next 128 bytes of the data stage. -/
theorem programPage_rest {rest : List (BitVec 8)} (documented : ep.Documented outPackets)
    (pageAddress : BitVec 16) (halign : pageAddress.toNat % 128 = 0)
    (hbytes : bytes.length = 128) (h : Streams outPackets e (bytes ++ rest)) (flash : BootFlash) :
    ∃ flash' e', programPage ep pageAddress (flash, e) = some (flash', e') ∧
      flash'.content = write flash.content pageAddress.toNat bytes := by
  obtain ⟨e', hfill, -⟩ := fillWords_rest documented halign 64 0 (by omega) (by omega) h
    (flash.pageErase pageAddress)
  have hstart : pageStart pageAddress = pageAddress.toNat := by
    unfold pageStart SPM_PAGESIZE
    omega
  refine ⟨BootFlash.pageWrite pageAddress { flash.pageErase pageAddress with
    pageBuffer := write flash.pageBuffer 0 bytes }, e', ?_, ?_⟩
  · simp only [programPage, show SPM_PAGESIZE / 2 = 64 from rfl, hfill]
    rfl
  · have hmap := map_range_write flash.pageBuffer bytes
    rw [hbytes] at hmap
    simp only [BootFlash.pageWrite, BootFlash.pageErase, hstart]
    rw [show SPM_PAGESIZE = 128 from rfl, hmap, write_overwrite (by simp [hbytes])]

end Page

section Transfer

variable {ε : Type} {ep : Endpoint ε} {outPackets : ε → List (List (BitVec 8))}

theorem aligned_iff {address : BitVec 16} :
    address &&& (BitVec.ofNat 16 SPM_PAGESIZE - 1) = 0#16 ↔ address.toNat % 128 = 0 := by
  rw [← BitVec.toNat_inj, BitVec.toNat_and]
  have hmask : (BitVec.ofNat 16 SPM_PAGESIZE - 1).toNat = 2 ^ 7 - 1 := by decide
  rw [hmask, Nat.and_two_pow_sub_one_eq_mod]
  rfl

/-- The addresses `handlePageAddress` does not reject. -/
def IsPageAddress (address : BitVec 16) : Prop :=
  address < BOOT_START_ADDR ∧ address &&& (BitVec.ofNat 16 SPM_PAGESIZE - 1) = 0#16

instance (address : BitVec 16) : Decidable (IsPageAddress address) :=
  inferInstanceAs (Decidable (_ ∧ _))

theorem isPageAddress_iff {address : BitVec 16} :
    IsPageAddress address ↔ address.toNat < 0x1800 ∧ address.toNat % 128 = 0 :=
  and_congr BitVec.lt_def aligned_iff

theorem IsPageAddress.ne_startApplication {address : BitVec 16} (h : IsPageAddress address) :
    address ≠ COMMAND_STARTAPPLICATION := by
  rintro rfl
  exact absurd h.1 (by decide)

/-- The data of a report is in the bank once the SETUP packet has been acknowledged. -/
theorem DataStage.streams (documented : ep.Documented outPackets) {e : ε} {lo hi reportId : BitVec 8}
    {data : List (BitVec 8)} (stage : DataStage (outPackets e) (reportId :: lo :: hi :: data)) :
    Streams outPackets (ep.clearSETUP e) (lo :: hi :: data) ∧
      (outPackets (ep.clearSETUP e)).head? ≠ some [] := by
  obtain ⟨flatten, even, nonempty⟩ := stage
  have hsetup := documented.clearSETUP e
  have hpackets : outPackets e ≠ [] := by
    intro hnil
    simp [hnil] at flatten
  refine ⟨⟨by rw [hsetup]; exact hpackets, by rw [hsetup]; exact flatten, by rwa [hsetup], ?_⟩, ?_⟩
  · intro q hq
    rw [hsetup] at hq
    exact nonempty q (List.mem_of_mem_tail hq)
  · rw [hsetup]
    intro hempty
    exact nonempty [] (List.mem_of_head? hempty) rfl

/-- A SetReport request reads the page address and hands over what is left of its data. -/
theorem setReport_handles (documented : ep.Documented outPackets) {e : ε} {lo hi reportId : BitVec 8}
    {data : List (BitVec 8)} (stage : DataStage (outPackets e) (reportId :: lo :: hi :: data))
    {request : ControlRequest} (hset : request.IsSetReport) (bootloader : Bootloader) :
    ∃ e', eventUsbDeviceControlRequest ep request (bootloader, e) =
        (handlePageAddress ep (hi ++ lo) (bootloader, e')).map
          (fun s => (s.1, ep.clearStatusStage (ep.clearOUT s.2))) ∧
      Streams outPackets e' data := by
  obtain ⟨hstream, hhead⟩ := stage.streams documented
  obtain ⟨hword, hrest⟩ := hstream.read documented hhead
  have hreceived : ep.isOUTReceived (ep.clearSETUP e) = true :=
    (documented.isOUTReceived _).mpr hstream.bank
  refine ⟨(ep.read16LE (ep.clearSETUP e)).2, ?_, hrest⟩
  unfold eventUsbDeviceControlRequest
  rw [if_neg (not_not.mpr hset.1), if_pos hset.2]
  simp only [waitOUT, hreceived, hword, ↓reduceIte, Option.bind_eq_bind, Option.bind_some]
  cases handlePageAddress ep (hi ++ lo) (bootloader, (ep.read16LE (ep.clearSETUP e)).2) with
  | none => rfl
  | some s => rfl

theorem handlePageAddress_page {e : ε} {address : BitVec 16} (bootloader : Bootloader)
    (hpage : IsPageAddress address) :
    handlePageAddress ep address (bootloader, e) =
      (programPage ep address (bootloader.flash, e)).map
        (fun s => ({ bootloader with flash := s.1 }, s.2)) := by
  have hvalid : address < BOOT_START_ADDR ∧
      address &&& (BitVec.ofNat 16 SPM_PAGESIZE - 1) = 0#16 := hpage
  unfold handlePageAddress
  rw [if_neg hpage.ne_startApplication, if_neg (not_not.mpr hvalid)]
  cases programPage ep address (bootloader.flash, e) with
  | none => rfl
  | some s => rfl

theorem setReport_page (documented : ep.Documented outPackets) {e : ε} {p : Nat}
    (hp : 128 * p < 0x1800) (content : PageBytes FLASH_PAGE_SIZE_BYTES) (bootloader : Bootloader)
    (stage : DataStage (outPackets e)
      (FlashPagePacket.toBytes ⟨0#8, BitVec.ofNat 16 (p * FLASH_PAGE_SIZE_BYTES), content⟩)) :
    ∃ after, setReport ep bootloader e = some after ∧
      after.flash.content = write bootloader.flash.content (128 * p) content.toList := by
  unfold FlashPagePacket.toBytes at stage
  generalize haddr : BitVec.ofNat 16 (p * FLASH_PAGE_SIZE_BYTES) = address at stage
  have hnat : address.toNat = 128 * p := by
    rw [← haddr, BitVec.toNat_ofNat]
    unfold FLASH_PAGE_SIZE_BYTES
    omega
  obtain ⟨e', hhandles, hstream⟩ := setReport_handles documented stage
    (show setReportRequest.IsSetReport by decide) bootloader
  have hword : (address >>> 8).setWidth 8 ++ address.setWidth 8 = address := by
    ext i hlt
    rw [BitVec.getElem_append]
    by_cases hlow : i < 8
    · rw [dif_pos hlow, BitVec.getElem_setWidth, BitVec.getLsbD_eq_getElem]
    · rw [dif_neg hlow, BitVec.getElem_setWidth, BitVec.getLsbD_ushiftRight]
      rw [show 8 + (i - 8) = i by omega, BitVec.getLsbD_eq_getElem]
  have hpage : IsPageAddress address :=
    isPageAddress_iff.mpr ⟨by rw [hnat]; exact hp, by rw [hnat]; omega⟩
  obtain ⟨flash', e'', hprogram, hcontent⟩ := programPage_rest documented address
    (by rw [hnat]; omega) Vector.length_toList (by rwa [List.append_nil]) bootloader.flash
  refine ⟨{ bootloader with flash := flash' }, ?_, ?_⟩
  · rw [setReport, hhandles, hword, handlePageAddress_page bootloader hpage, hprogram]
    rfl
  · rw [hcontent, hnat]

def setReports (ep : Endpoint ε) (bootloader : Bootloader) (dataStages : List ε) :
    Option Bootloader :=
  dataStages.foldlM (setReport ep) bootloader

theorem write_page_inside {m : Nat → BitVec 8} {content : PageBytes FLASH_PAGE_SIZE_BYTES} {p i : Nat}
    (hi : i < FLASH_PAGE_SIZE_BYTES) :
    write m (128 * p) content.toList (128 * p + i) = content[i] := by
  have hlen : content.toList.length = FLASH_PAGE_SIZE_BYTES := Vector.length_toList
  rw [write_getElem (by omega) (by omega), Vector.getElem_toList]
  simp

theorem write_page_outside {m : Nat → BitVec 8} {content : PageBytes FLASH_PAGE_SIZE_BYTES} {p a : Nat}
    (h : a < 128 * p ∨ 128 * p + 128 ≤ a) : write m (128 * p) content.toList a = m a := by
  have hlen : content.toList.length = 128 := Vector.length_toList
  rcases h with hlo | hhi
  · exact write_of_lt hlo
  · exact write_of_ge (by omega)

/-- Sent in any packets of whole words, the reports of `flash` make the bootloader write every
listed page, and nothing else. -/
theorem flash_setReports (documented : ep.Documented outPackets) (flashData : FlashData)
    (distinct : (flashData.map Prod.fst).Nodup) (inApp : ∀ p ∈ flashData.map Prod.fst, 128 * p < 0x1800)
    (bootloader : Bootloader) :
    ∃ reports, flash flashData = .ok reports ∧ ∀ dataStages : List ε,
      List.Forall₂ (fun report e => DataStage (outPackets e) report) reports dataStages →
      ∃ after, setReports ep bootloader dataStages = some after ∧
        (∀ p content, (p, content) ∈ flashData → ∀ (i : Nat) (hi : i < 128),
          after.flash.content (128 * p + i) = content[i]) ∧
        ∀ a, (∀ p ∈ flashData.map Prod.fst, a < 128 * p ∨ 128 * p + 128 ≤ a) →
          after.flash.content a = bootloader.flash.content a := by
  induction flashData generalizing bootloader with
  | nil =>
    refine ⟨[], rfl, ?_⟩
    intro dataStages hstages
    cases hstages
    exact ⟨bootloader, rfl, by simp, fun _ _ => rfl⟩
  | cons page rest ih =>
    obtain ⟨p, content⟩ := page
    simp only [List.map_cons, List.nodup_cons, List.mem_cons, forall_eq_or_imp] at distinct inApp
    obtain ⟨hp, hrest⟩ := inApp
    have haddress : pageAddressOf p = .ok (BitVec.ofNat 16 (p * FLASH_PAGE_SIZE_BYTES)) :=
      if_pos (by unfold FLASH_PAGE_SIZE_BYTES; omega)
    obtain ⟨reports, hreports, _⟩ := ih distinct.2 hrest bootloader
    refine ⟨FlashPagePacket.toBytes ⟨0#8, BitVec.ofNat 16 (p * FLASH_PAGE_SIZE_BYTES), content⟩ ::
      reports, by simp only [flash, haddress, hreports, Outcome.ok_bind, Outcome.pure_eq], ?_⟩
    intro dataStages hstages
    obtain ⟨e, stages, hfirst, hstages', rfl⟩ := List.forall₂_cons_left_iff.mp hstages
    obtain ⟨first, hset, hcontent⟩ := setReport_page documented hp content bootloader hfirst
    obtain ⟨reports', hreports', hall⟩ := ih distinct.2 hrest first
    rw [hreports] at hreports'
    cases hreports'
    obtain ⟨after, hsets, hlisted, hothers⟩ := hall stages hstages'
    refine ⟨after, ?_, ?_, ?_⟩
    · rw [setReports, List.foldlM_cons, hset]
      exact hsets
    · intro q content' hmem i hi
      rcases List.mem_cons.mp hmem with heq | hmem
      · cases heq
        have hother : ∀ q ∈ rest.map Prod.fst,
            128 * p + i < 128 * q ∨ 128 * q + 128 ≤ 128 * p + i := by
          intro q hq
          have hne : q ≠ p := by
            rintro rfl
            exact distinct.1 hq
          omega
        rw [hothers _ hother, hcontent, write_page_inside hi]
      · exact hlisted q content' hmem i hi
    · intro a ha
      simp only [List.map_cons, List.mem_cons, forall_eq_or_imp] at ha
      rw [hothers a ha.2, hcontent, write_page_outside ha.1]

/-- Packets of any even size, such as that of the control endpoint, carry whole words. -/
theorem dataStage_chunks {report : List (BitVec 8)} {size : Nat} (hsize : 0 < size)
    (heven : size % 2 = 0) (hreport : report.tail.length % 2 = 0) :
    DataStage (chunks size report.tail) report :=
  ⟨chunks_flatten hsize report.tail, fun _ => chunks_even hsize heven hreport,
    fun _ hq => (mem_chunks hsize hq).1⟩

theorem flash_report_length {flashData : FlashData} {reports : List (List (BitVec 8))}
    (h : flash flashData = .ok reports) : ∀ report ∈ reports, report.tail.length = 130 := by
  induction flashData generalizing reports with
  | nil =>
    cases h
    simp
  | cons page rest ih =>
    obtain ⟨p, content⟩ := page
    simp only [flash] at h
    cases haddress : pageAddressOf p with
    | err => simp [haddress, Bind.bind, Outcome.bind] at h
    | panic => simp [haddress, Bind.bind, Outcome.bind] at h
    | ok address =>
      cases hrest : flash rest with
      | err => simp [haddress, hrest, Bind.bind, Outcome.bind] at h
      | panic => simp [haddress, hrest, Bind.bind, Outcome.bind] at h
      | ok reports' =>
        rw [haddress, hrest] at h
        cases h
        intro report hmem
        rcases List.mem_cons.mp hmem with rfl | hmem
        · simp [FlashPagePacket.toBytes]
        · exact ih hrest report hmem

end Transfer

def fifoEndpoint : Endpoint (List (List (BitVec 8))) :=
  { isOUTReceived := fun e => !e.isEmpty
    bytesInEndpoint := fun e => (e.headD []).length
    read16LE := fun e =>
      match e with
      | (lo :: hi :: packet) :: rest => (hi ++ lo, packet :: rest)
      | _ => (0#16, e)
    clearSETUP := fun e => e
    clearOUT := fun e => e.tail
    stallTransaction := fun e => e
    clearStatusStage := fun e => e }

theorem fifoEndpoint_documented : fifoEndpoint.Documented (fun e => e) := by
  refine ⟨?_, ?_, ?_, fun _ => rfl, ?_⟩
  · intro e
    cases e <;> simp [fifoEndpoint]
  · rintro e packet rest rfl
    rfl
  · rintro e lo hi packet rest rfl
    exact ⟨rfl, rfl⟩
  · rintro e packet rest rfl
    rfl

def twoPages : FlashData :=
  [(0, Vector.replicate _ 0xAA#8), (3, Vector.ofFn (fun i => BitVec.ofNat 8 i.val))]

def blankBootloader : Bootloader :=
  { runBootloader := true, flash := { content := fun _ => 0x55#8, pageBuffer := fun _ => 0xFF#8 } }

theorem flash_setReports_twoPages :
    ∃ reports after, flash twoPages = .ok reports ∧
      setReports fifoEndpoint blankBootloader (reports.map (fun report => chunks 8 report.tail)) =
        some after ∧
      after.flash.content 127 = 0xAA#8 ∧ after.flash.content 128 = 0x55#8 ∧
      after.flash.content 389 = 5#8 := by
  obtain ⟨reports, hreports, hall⟩ := flash_setReports fifoEndpoint_documented twoPages (by decide)
    (by decide) blankBootloader
  obtain ⟨after, hafter, hlisted, hothers⟩ :=
    hall (reports.map (fun report => chunks 8 report.tail)) (by
      rw [List.forall₂_map_right_iff, List.forall₂_same]
      intro report hreport
      exact dataStage_chunks (by decide) (by decide) (by rw [flash_report_length hreports report hreport]))
  refine ⟨reports, after, hreports, hafter, ?_, ?_, ?_⟩
  · exact (hlisted 0 _ (List.mem_cons_self ..) 127 (by decide)).trans (by decide)
  · exact (hothers 128 (by decide)).trans rfl
  · exact (hlisted 3 _ (List.mem_cons_of_mem _ (List.mem_cons_self ..)) 5 (by decide)).trans (by decide)

end MyMouse
