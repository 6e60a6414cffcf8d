import MyMouse.FlashTransfer

namespace MyMouse

open Memory

/-- The first two bytes of a report's data, as the handler reads them. -/
def pageAddressIn (data : List (BitVec 8)) : BitVec 16 := data.getD 1 0#8 ++ data.getD 0 0#8

def BootFlash.page (flash : BootFlash) (address : BitVec 16) : List (BitVec 8) :=
  (List.range SPM_PAGESIZE).map (fun i => flash.content (address.toNat + i))

section Length

variable {ε : Type} {ep : Endpoint ε} {outPackets : ε → List (List (BitVec 8))} {e : ε}
  {bytes : List (BitVec 8)} {pageAddress : BitVec 16}

/-- The handler comes back without waiting for a packet the host does not send, and the flash
is what it was. -/
def ChangesNothing (ep : Endpoint ε) (request : ControlRequest) (bootloader : Bootloader)
    (e : ε) : Prop :=
  ∃ after e', eventUsbDeviceControlRequest ep request (bootloader, e) = some (after, e') ∧
    after.flash.content = bootloader.flash.content

/-- With nothing left to read the handler waits. -/
theorem fillWord_none (documented : ep.Documented outPackets) (h : Streams outPackets e [])
    (flash : BootFlash) (pageWord : Nat) : fillWord ep pageAddress (flash, e) pageWord = none := by
  obtain ⟨bank, flatten, -, nonempty⟩ := h
  cases hpackets : outPackets e with
  | nil => exact absurd hpackets bank
  | cons packet rest =>
    rw [hpackets, List.flatten_cons, List.append_eq_nil_iff] at flatten
    have hpacket := flatten.1
    subst hpacket
    have hrest : rest = [] := by
      cases rest with
      | nil => rfl
      | cons q rest =>
        have hq : q = [] := (List.append_eq_nil_iff.mp flatten.2).1
        exact absurd hq (nonempty q (by simp [hpackets]))
    subst hrest
    have hempty := documented.bytesInEndpoint e [] [] hpackets
    have hcleared := documented.clearOUT e [] [] hpackets
    have hnever : ¬ ep.isOUTReceived (ep.clearOUT e) = true := by
      rw [documented.isOUTReceived, hcleared]
      exact fun h => h rfl
    unfold fillWord
    simp only [hempty, List.length_nil, ↓reduceIte, waitOUT, if_neg hnever]
    rfl

/-- A data stage which ends before the page does leaves the handler in its loop. -/
theorem fillWords_none (documented : ep.Documented outPackets) (n k : Nat)
    (hshort : bytes.length < 2 * n) (heven : bytes.length % 2 = 0)
    (h : Streams outPackets e bytes) (flash : BootFlash) :
    (List.range' k n).foldlM (fillWord ep pageAddress) (flash, e) = none := by
  induction n generalizing k bytes e flash with
  | zero => omega
  | succ n ih =>
    rw [List.range'_succ, List.foldlM_cons]
    match bytes, hshort, heven with
    | [], _, _ =>
      rw [fillWord_none documented h]
      rfl
    | lo :: hi :: bytes, hshort, heven =>
      obtain ⟨e', hfill, hstream⟩ := fillWord_ok documented h flash pageAddress k
      rw [hfill]
      simp only [List.length_cons] at hshort heven
      exact ih (k + 1) (by omega) (by omega) hstream _

theorem programPage_none (documented : ep.Documented outPackets) (hshort : bytes.length < 128)
    (heven : bytes.length % 2 = 0) (h : Streams outPackets e bytes) (flash : BootFlash) :
    programPage ep pageAddress (flash, e) = none := by
  unfold programPage
  rw [show SPM_PAGESIZE / 2 = 64 from rfl, fillWords_none documented 64 0 (by omega) heven h]
  rfl

theorem handlePageAddress_rejects (hstart : pageAddress ≠ COMMAND_STARTAPPLICATION)
    (hpage : ¬ IsPageAddress pageAddress) (bootloader : Bootloader) :
    handlePageAddress ep pageAddress (bootloader, e) =
      some (bootloader, ep.stallTransaction e) := by
  unfold handlePageAddress
  rw [if_neg hstart, if_pos]
  exact hpage

theorem page_eq_iff {flash : BootFlash} (hlen : bytes.length = 128) :
    write flash.content pageAddress.toNat bytes = flash.content ↔ flash.page pageAddress = bytes := by
  have hpage : (flash.page pageAddress).length = bytes.length := by
    rw [hlen, BootFlash.page, List.length_map, List.length_range]
    rfl
  constructor
  · intro hsame
    apply List.ext_getElem hpage
    intro i hi hi'
    have hread : bytes[i] = flash.content (pageAddress.toNat + i) := by
      rw [← hsame, write_getElem (by omega) (by omega)]
      congr 1
      omega
    simp only [BootFlash.page, List.getElem_map, List.getElem_range]
    exact hread.symm
  · intro hbytes
    funext a
    by_cases hlo : a < pageAddress.toNat
    · exact write_of_lt hlo
    by_cases hhi : pageAddress.toNat + bytes.length ≤ a
    · exact write_of_ge hhi
    rw [write_getElem (by omega) (by omega)]
    have hi : a - pageAddress.toNat < (flash.page pageAddress).length := by omega
    have hread : (flash.page pageAddress)[a - pageAddress.toNat] = flash.content a := by
      simp only [BootFlash.page, List.getElem_map, List.getElem_range]
      congr 1
      omega
    rw [← hread]
    simp only [hbytes]

theorem streams_even (h : Streams outPackets e bytes) : bytes.length % 2 = 0 := by
  have general : ∀ packets : List (List (BitVec 8)), (∀ packet ∈ packets, packet.length % 2 = 0) →
      packets.flatten.length % 2 = 0 := by
    intro packets
    induction packets with
    | nil => simp
    | cons packet rest ih =>
      intro heven
      have hrest := ih (fun q hq => heven q (by simp [hq]))
      have hpacket := heven packet (by simp)
      rw [List.flatten_cons, List.length_append]
      omega
  rw [← h.flatten]
  exact general _ h.even

/-- The data of a page write: the page is left alone only if it already holds them. -/
theorem page_changesNothing_iff (documented : ep.Documented outPackets)
    (hpage : IsPageAddress pageAddress) (h : Streams outPackets e bytes)
    (bootloader : Bootloader) :
    (∃ s, handlePageAddress ep pageAddress (bootloader, e) = some s ∧
        s.1.flash.content = bootloader.flash.content) ↔
      bootloader.flash.page pageAddress = bytes.take 128 := by
  rw [handlePageAddress_page bootloader hpage]
  by_cases hshort : bytes.length < 128
  · rw [programPage_none documented hshort (streams_even h) h]
    constructor
    · rintro ⟨s, hnone, -⟩
      cases hnone
    · intro hsame
      have hcount := congrArg List.length hsame
      rw [BootFlash.page, List.length_map, List.length_range, List.length_take] at hcount
      unfold SPM_PAGESIZE at hcount
      omega
  · have hfront : (bytes.take 128).length = 128 := by
      rw [List.length_take]
      omega
    obtain ⟨flash', e', hprogram, hcontent⟩ := programPage_rest documented pageAddress
      (isPageAddress_iff.mp hpage).2 hfront
      (show Streams outPackets e (bytes.take 128 ++ bytes.drop 128) by
        rwa [List.take_append_drop])
      bootloader.flash
    rw [hprogram, ← page_eq_iff hfront, ← hcontent]
    constructor
    · rintro ⟨s, hs, hsame⟩
      cases hs
      exact hsame
    · intro hsame
      exact ⟨_, rfl, hsame⟩

/-- A page write of any length changes nothing exactly if its address is rejected, or if the
page holds the data already. -/
theorem changesNothing_iff (documented : ep.Documented outPackets) {request : ControlRequest}
    (hset : request.IsSetReport) {reportId : BitVec 8} {data : List (BitVec 8)}
    (stage : DataStage (outPackets e) (reportId :: data)) (hn : 2 ≤ data.length)
    (hstart : pageAddressIn data ≠ COMMAND_STARTAPPLICATION) (bootloader : Bootloader) :
    ChangesNothing ep request bootloader e ↔
      ¬ IsPageAddress (pageAddressIn data) ∨
        bootloader.flash.page (pageAddressIn data) = (data.drop 2).take SPM_PAGESIZE := by
  match data, hn with
  | lo :: hi :: bytes, _ =>
    have haddress : pageAddressIn (lo :: hi :: bytes) = hi ++ lo := rfl
    rw [haddress] at hstart ⊢
    obtain ⟨e', hhandles, hstream⟩ := setReport_handles documented stage hset bootloader
    unfold ChangesNothing
    rw [hhandles]
    by_cases hpage : IsPageAddress (hi ++ lo)
    · have hexact := page_changesNothing_iff documented hpage hstream bootloader
      constructor
      · rintro ⟨after, e'', hmap, hsame⟩
        obtain ⟨s, hs, hpair⟩ := Option.map_eq_some_iff.mp hmap
        cases hpair
        exact Or.inr (hexact.mp ⟨s, hs, hsame⟩)
      · rintro (hnot | hsame)
        · exact absurd hpage hnot
        · obtain ⟨s, hs, hcontent⟩ := hexact.mpr hsame
          exact ⟨s.1, _, by rw [hs]; rfl, hcontent⟩
    · rw [handlePageAddress_rejects hstart hpage]
      refine ⟨fun _ => Or.inl hpage, fun _ => ⟨bootloader, _, rfl, rfl⟩⟩

end Length

/-- Eight bytes for an address in the bootloader section. -/
def bootSectionWrite : List (BitVec 8) := [0x00#8, 0x18#8, 1#8, 2#8, 3#8, 4#8, 5#8, 6#8]

theorem changesNothing_bootSectionWrite :
    ChangesNothing fifoEndpoint setReportRequest blankBootloader [bootSectionWrite] :=
  (changesNothing_iff fifoEndpoint_documented (by decide)
    (show DataStage [bootSectionWrite] (0#8 :: bootSectionWrite) from
      ⟨by decide, by decide, by decide⟩)
    (by decide) (by decide) blankBootloader).mpr (Or.inl (by decide))

/-- A write to the first page, cut off after its first packet. -/
def truncatedWrite : List (BitVec 8) := [0x00#8, 0x00#8, 1#8, 2#8, 3#8, 4#8, 5#8, 6#8]

theorem waits_truncatedWrite :
    DataStage [truncatedWrite] (0#8 :: truncatedWrite) ∧
      pageAddressIn truncatedWrite ≠ COMMAND_STARTAPPLICATION ∧
      truncatedWrite.length ≠ 2 + SPM_PAGESIZE ∧
      eventUsbDeviceControlRequest fifoEndpoint setReportRequest
        (blankBootloader, [truncatedWrite]) = none ∧
      ¬ ChangesNothing fifoEndpoint setReportRequest blankBootloader [truncatedWrite] := by
  have hwaits : eventUsbDeviceControlRequest fifoEndpoint setReportRequest
      (blankBootloader, [truncatedWrite]) = none := rfl
  refine ⟨⟨by decide, by decide, by decide⟩, by decide, by decide, hwaits, ?_⟩
  rintro ⟨after, e', hsome, -⟩
  rw [hwaits] at hsome
  cases hsome

end MyMouse
