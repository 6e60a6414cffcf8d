import MyMouse.ReportLength
import MyMouse.Run

namespace MyMouse

open Memory Runs

section Request

variable {ε : Type} (ep : Endpoint ε)

/-- The address a SetReport request starts with, as the handler reads it. -/
def requestAddress (e : ε) : BitVec 16 := (ep.read16LE (ep.clearSETUP e)).1

/-- The flash when the words have been filled in, or while the handler waits for one that
never comes. -/
def fillUntilWait (pageAddress : BitVec 16) : List Nat → BootFlash × ε → BootFlash
  | [], s => s.1
  | pageWord :: words, s =>
    match fillWord ep pageAddress s pageWord with
    | some s => fillUntilWait pageAddress words s
    | none => s.1

/-- The flash of a SetReport request that never comes back. -/
def waitingFlash (s : Bootloader × ε) : BootFlash :=
  match waitOUT ep (ep.clearSETUP s.2) with
  | some e =>
    fillUntilWait ep (ep.read16LE e).1 (List.range' 0 (SPM_PAGESIZE / 2))
      (s.1.flash.pageErase (ep.read16LE e).1, (ep.read16LE e).2)
  | none => s.1.flash

/-- The bootloader after a request, or while it waits in it forever. -/
def requestState (request : ControlRequest) (s : Bootloader × ε) : Bootloader :=
  match eventUsbDeviceControlRequest ep request s with
  | some after => after.1
  | none => { s.1 with flash := waitingFlash ep s }

def requestStep (s : Bootloader) (input : ControlRequest × ε) : Option Bootloader :=
  some (requestState ep input.1 (s, input.2))

end Request

/-- What a request with this address may do to the bootloader. -/
structure WritesOnly (before after : Bootloader) (address : BitVec 16) : Prop where
  outside : ∀ a, a < address.toNat ∨ address.toNat + SPM_PAGESIZE ≤ a →
    after.flash.content a = before.flash.content a
  rejected : address.toNat % SPM_PAGESIZE ≠ 0 ∨ BOOT_START_ADDR ≤ address →
    after.flash.content = before.flash.content
  stops : before.runBootloader = true → after.runBootloader = false →
    address = COMMAND_STARTAPPLICATION

section Frame

variable {ε : Type} {ep : Endpoint ε} {pageAddress : BitVec 16} {a : Nat}

/-- The address is in the first two bytes of the data the host sends. -/
theorem requestAddress_eq {outPackets : ε → List (List (BitVec 8))}
    (documented : ep.Documented outPackets) {e : ε} {lo hi reportId : BitVec 8}
    {data : List (BitVec 8)} (stage : DataStage (outPackets e) (reportId :: lo :: hi :: data)) :
    requestAddress ep e = pageAddressIn (lo :: hi :: data) := by
  obtain ⟨hstream, hhead⟩ := stage.streams documented
  obtain ⟨hword, -⟩ := hstream.read documented hhead
  exact hword

theorem fillWord_content {s t : BootFlash × ε} {pageWord : Nat}
    (h : fillWord ep pageAddress s pageWord = some t) : t.1.content = s.1.content := by
  unfold fillWord at h
  split at h
  next =>
    obtain ⟨e, -, hword⟩ := Option.bind_eq_some_iff.mp h
    cases Option.some.inj hword
    rfl
  next =>
    cases Option.some.inj h
    rfl

theorem foldlM_fillWord_content (words : List Nat) {s t : BootFlash × ε}
    (h : words.foldlM (fillWord ep pageAddress) s = some t) : t.1.content = s.1.content := by
  induction words generalizing s with
  | nil =>
    cases Option.some.inj h
    rfl
  | cons pageWord words ih =>
    rw [List.foldlM_cons] at h
    obtain ⟨u, hword, hrest⟩ := Option.bind_eq_some_iff.mp h
    exact (ih hrest).trans (fillWord_content hword)

theorem fillUntilWait_content (words : List Nat) (s : BootFlash × ε) :
    (fillUntilWait ep pageAddress words s).content = s.1.content := by
  induction words generalizing s with
  | nil => rfl
  | cons pageWord words ih =>
    unfold fillUntilWait
    split
    next t hword => exact (ih t).trans (fillWord_content hword)
    next => rfl

theorem pageErase_outside (flash : BootFlash)
    (h : a < pageStart pageAddress ∨ pageStart pageAddress + SPM_PAGESIZE ≤ a) :
    (flash.pageErase pageAddress).content a = flash.content a := by
  rcases h with hlo | hhi
  · exact write_of_lt hlo
  · exact write_of_ge (by rwa [List.length_replicate])

theorem pageWrite_outside (flash : BootFlash)
    (h : a < pageStart pageAddress ∨ pageStart pageAddress + SPM_PAGESIZE ≤ a) :
    (flash.pageWrite pageAddress).content a = flash.content a := by
  rcases h with hlo | hhi
  · exact write_of_lt hlo
  · exact write_of_ge (by rwa [List.length_map, List.length_range])

theorem programPage_outside {s t : BootFlash × ε} (hprogram : programPage ep pageAddress s = some t)
    (h : a < pageStart pageAddress ∨ pageStart pageAddress + SPM_PAGESIZE ≤ a) :
    t.1.content a = s.1.content a := by
  obtain ⟨u, hfill, hwrite⟩ := Option.bind_eq_some_iff.mp hprogram
  cases Option.some.inj hwrite
  calc
    (u.1.pageWrite pageAddress).content a = u.1.content a := pageWrite_outside u.1 h
    _ = (s.1.pageErase pageAddress).content a := by rw [foldlM_fillWord_content _ hfill]
    _ = s.1.content a := pageErase_outside s.1 h

theorem IsPageAddress.pageStart (hpage : IsPageAddress pageAddress) :
    MyMouse.pageStart pageAddress = pageAddress.toNat := by
  obtain ⟨-, haligned⟩ := isPageAddress_iff.mp hpage
  unfold MyMouse.pageStart SPM_PAGESIZE
  omega

/-- What may be written for an address the handler accepts. -/
theorem writesOnly_of_page {before after : Bootloader} (hpage : IsPageAddress pageAddress)
    (hrun : after.runBootloader = before.runBootloader)
    (hcontent : ∀ a, a < MyMouse.pageStart pageAddress ∨
      MyMouse.pageStart pageAddress + SPM_PAGESIZE ≤ a →
        after.flash.content a = before.flash.content a) :
    WritesOnly before after pageAddress := by
  obtain ⟨hbound, haligned⟩ := isPageAddress_iff.mp hpage
  have hstart : BOOT_START_ADDR.toNat = 0x1800 := rfl
  rw [hpage.pageStart] at hcontent
  refine ⟨hcontent, ?_, ?_⟩
  · rintro (hunaligned | habove)
    · exact absurd haligned hunaligned
    · have hle := BitVec.le_def.mp habove
      omega
  · intro hbefore hafter
    rw [hrun, hbefore] at hafter
    cases hafter

theorem writesOnly_of_content {before after : Bootloader}
    (hrun : after.runBootloader = before.runBootloader)
    (hcontent : after.flash.content = before.flash.content) :
    WritesOnly before after pageAddress := by
  refine ⟨fun a _ => congrFun hcontent a, fun _ => hcontent, ?_⟩
  intro hbefore hafter
  rw [hrun, hbefore] at hafter
  cases hafter

theorem handlePageAddress_writesOnly {s t : Bootloader × ε}
    (h : handlePageAddress ep pageAddress s = some t) : WritesOnly s.1 t.1 pageAddress := by
  by_cases hstart : pageAddress = COMMAND_STARTAPPLICATION
  · unfold handlePageAddress at h
    rw [if_pos hstart] at h
    cases Option.some.inj h
    exact ⟨fun _ _ => rfl, fun _ => rfl, fun _ _ => hstart⟩
  · by_cases hpage : IsPageAddress pageAddress
    · rw [handlePageAddress_page s.1 hpage] at h
      obtain ⟨u, hprogram, ht⟩ := Option.map_eq_some_iff.mp h
      subst ht
      exact writesOnly_of_page hpage rfl (fun a hout => programPage_outside hprogram hout)
    · rw [handlePageAddress_rejects hstart hpage s.1] at h
      cases Option.some.inj h
      exact writesOnly_of_content rfl rfl

/-- The handler only waits inside a page it may program. -/
theorem handlePageAddress_waits {s : Bootloader × ε}
    (h : handlePageAddress ep pageAddress s = none) : IsPageAddress pageAddress := by
  by_contra hpage
  by_cases hstart : pageAddress = COMMAND_STARTAPPLICATION
  · unfold handlePageAddress at h
    rw [if_pos hstart] at h
    cases h
  · rw [handlePageAddress_rejects hstart hpage s.1] at h
    cases h

theorem waiting_writesOnly {request : ControlRequest} {s : Bootloader × ε}
    (h : eventUsbDeviceControlRequest ep request s = none) :
    WritesOnly s.1 { s.1 with flash := waitingFlash ep s } (requestAddress ep s.2) := by
  unfold waitingFlash
  split
  next e hreceived =>
    have he : e = ep.clearSETUP s.2 := by
      unfold waitOUT at hreceived
      split at hreceived
      next => exact (Option.some.inj hreceived).symm
      next => simp at hreceived
    have hpage : IsPageAddress (requestAddress ep s.2) := by
      unfold eventUsbDeviceControlRequest at h
      split at h
      next => simp at h
      next =>
        split at h
        next =>
          rw [hreceived, he] at h
          cases hhandled : handlePageAddress ep (ep.read16LE (ep.clearSETUP s.2)).1
              (s.1, (ep.read16LE (ep.clearSETUP s.2)).2) with
          | none => exact handlePageAddress_waits hhandled
          | some t => simp [hhandled] at h
        next => simp at h
    subst he
    refine writesOnly_of_page hpage rfl ?_
    intro a hout
    rw [fillUntilWait_content]
    exact pageErase_outside s.1.flash hout
  next => exact writesOnly_of_content rfl rfl

theorem requestState_writesOnly (request : ControlRequest) (s : Bootloader × ε) :
    WritesOnly s.1 (requestState ep request s) (requestAddress ep s.2) := by
  unfold requestState
  split
  next after hafter =>
    unfold eventUsbDeviceControlRequest at hafter
    split at hafter
    next =>
      cases Option.some.inj hafter
      exact writesOnly_of_content rfl rfl
    next =>
      split at hafter
      next =>
        obtain ⟨e, hreceived, hafter⟩ := Option.bind_eq_some_iff.mp hafter
        obtain ⟨t, hhandled, hafter⟩ := Option.bind_eq_some_iff.mp hafter
        cases Option.some.inj hafter
        unfold waitOUT at hreceived
        split at hreceived
        next =>
          cases Option.some.inj hreceived
          have honly := handlePageAddress_writesOnly hhandled
          exact honly
        next => simp at hreceived
      next =>
        cases Option.some.inj hafter
        exact writesOnly_of_content rfl rfl
  next hwaits => exact waiting_writesOnly hwaits

/-- No page the handler accepts reaches into the bootloader section. -/
theorem WritesOnly.above {before after : Bootloader} {address : BitVec 16}
    (h : WritesOnly before after address) (habove : BOOT_START_ADDR.toNat ≤ a) :
    after.flash.content a = before.flash.content a := by
  have hstart : BOOT_START_ADDR.toNat = 0x1800 := rfl
  by_cases haligned : address.toNat % SPM_PAGESIZE = 0
  · by_cases hbound : BOOT_START_ADDR ≤ address
    · rw [h.rejected (.inr hbound)]
    · have hlt := BitVec.lt_def.mp (BitVec.not_le.mp hbound)
      unfold SPM_PAGESIZE at haligned
      refine h.outside a (.inr ?_)
      unfold SPM_PAGESIZE
      omega
  · rw [h.rejected (.inl haligned)]

/-- Whatever requests come, whether or not their data stages end early, each writes its own
page at most, and the bootloader section stays as it was. -/
theorem run_writesOnly {start s : Bootloader} {trace : List (Bootloader × ControlRequest × ε)}
    (run : Run (requestStep ep) start trace s) :
    AllStates (fun s => ∀ a, BOOT_START_ADDR.toNat ≤ a → s.flash.content a = start.flash.content a)
      trace s ∧
    AllSteps (fun before input => WritesOnly before (requestState ep input.1 (before, input.2))
      (requestAddress ep input.2)) trace := by
  have hsteps : AllSteps (fun before input => WritesOnly before
      (requestState ep input.1 (before, input.2)) (requestAddress ep input.2)) trace :=
    fun p _ => requestState_writesOnly p.2.1 (p.1, p.2.2)
  refine ⟨?_, hsteps⟩
  refine run.invariant hsteps (fun _ _ => rfl) ?_
  intro before input after hbefore honly hstep a habove
  cases Option.some.inj hstep
  exact (honly.above habove).trans (hbefore a habove)

/-- A write cut off after its first packet leaves its page erased. -/
theorem run_writesOnly_truncatedWrite :
    ∃ trace s, Run (requestStep fifoEndpoint) blankBootloader trace s ∧
      s.flash.content 0x7F = 0xFF#8 ∧
      s.flash.content 0x1800 = blankBootloader.flash.content 0x1800 := by
  have hreplay : (replay (requestStep fifoEndpoint) blankBootloader
      [(setReportRequest, [truncatedWrite])]).any
        (fun s => decide (s.flash.content 0x7F = 0xFF#8)) = true := by
    decide +kernel
  obtain ⟨trace, s, run, -, herased⟩ := exists_run_of_replay hreplay
  have hwrites := run_writesOnly run
  exact ⟨trace, s, run, of_decide_eq_true herased, hwrites.1.1 0x1800 (by decide)⟩

end Frame

end MyMouse
