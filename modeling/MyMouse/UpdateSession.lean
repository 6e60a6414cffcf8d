import MyMouse.AppRequests
import MyMouse.BootChoice
import MyMouse.BootWrites
import MyMouse.Communicator
import MyMouse.FlashBounds

namespace MyMouse

open Memory Runs

/-- The chip with the programs it holds: where it is between its two programs, the bootloader's
variable with the flash, and the application. `waits` says that the bootloader waits in a request
for a packet that never comes. -/
structure UpdateChip where
  boot : BootChip
  bootloader : Bootloader
  app : MouseApp
  waits : Bool

/-- A reset or the next thing the programs do, a USB event of the application, a request to the
bootloader, and one to the bootloader that a reset cuts off, `left` being what it leaves in the
page. -/
inductive UpdateStep (ε : Type)
  | boot (step : BootStep)
  | app (event : AppEvent)
  | request (request : ControlRequest) (dataStage : ε)
  | cutOff (request : ControlRequest) (dataStage : ε) (left : List (BitVec 8)) (cause : ResetCause)
    (ram : BitVec 16)

namespace UpdateChip

variable {ε : Type} (ep : Endpoint ε)

/-- The variables have their first values after a reset, and the page buffer is erased. -/
def reset (cause : ResetCause) (ram : BitVec 16) (s : UpdateChip) : UpdateChip :=
  { boot := s.boot.reset cause ram
    bootloader :=
      { runBootloader := true, flash := { s.bootloader.flash with pageBuffer := fun _ => 0xFF#8 } }
    app := .start
    waits := false }

def powerOn (content : Nat → BitVec 8) (ram : BitVec 16) : UpdateChip :=
  { boot := .powerOn ram
    bootloader :=
      { runBootloader := true, flash := { content := content, pageBuffer := fun _ => 0xFF#8 } }
    app := .start
    waits := false }

/-- The bootloader serves requests. -/
def Serving (s : UpdateChip) : Prop :=
  s.boot.phase = .runBootloader ∧ s.bootloader.runBootloader = true ∧ s.waits = false

instance (s : UpdateChip) : Decidable s.Serving := inferInstanceAs (Decidable (_ ∧ _ ∧ _))

/-- The main loop of the bootloader ends once `run_bootloader` has been cleared. -/
def proceed (highFirst : Bool) (s : UpdateChip) : Option UpdateChip :=
  if s.boot.phase = .runBootloader ∧ (s.bootloader.runBootloader = true ∨ s.waits = true) then none
  else (s.boot.proceed highFirst).map fun boot => { s with boot }

def serve (request : ControlRequest) (dataStage : ε) (s : UpdateChip) : UpdateChip :=
  { s with
    bootloader := requestState ep request (s.bootloader, dataStage)
    waits := (eventUsbDeviceControlRequest ep request (s.bootloader, dataStage)).isNone }

/-- The address that the data of a request begin with, once a packet of them has come. -/
def addressOf (request : ControlRequest) (dataStage : ε) : Option (BitVec 16) :=
  if request.IsSetReport ∧ ep.isOUTReceived (ep.clearSETUP dataStage) = true then
    some (requestAddress ep dataStage)
  else none

/-- A page whose programming is cut off may hold anything. -/
def damage (request : ControlRequest) (dataStage : ε) (left : List (BitVec 8)) (s : UpdateChip) :
    UpdateChip :=
  match addressOf ep request dataStage with
  | some address =>
    if IsPageAddress address then
      { s with
        bootloader.flash.content :=
          write s.bootloader.flash.content address.toNat (left.take SPM_PAGESIZE) }
    else s
  | none => s

def step (s : UpdateChip) : UpdateStep ε → Option UpdateChip
  | .boot (.reset cause ram) => some (s.reset cause ram)
  | .boot (.proceed highFirst) => s.proceed highFirst
  | .app event =>
    if s.boot.phase = .application then (s.app.step event).map fun app => { s with app } else none
  | .request request dataStage => if s.Serving then some (s.serve ep request dataStage) else none
  | .cutOff request dataStage left cause ram =>
    if s.Serving then some ((s.damage ep request dataStage left).reset cause ram) else none

/-- What is stored in the flash of the chip. -/
def content (s : UpdateChip) : Nat → BitVec 8 := s.bootloader.flash.content

end UpdateChip

/-- The flash once these pages have been written to it. -/
def programmed (flashData : FlashData) (content : Nat → BitVec 8) : Nat → BitVec 8 :=
  flashData.foldl (fun content page => write content (128 * page.1) page.2.toList) content

section Programmed

variable {flashData : FlashData} {content content' : Nat → BitVec 8} {a : Nat}

/-- The address lies in one of the pages. -/
def Listed (flashData : FlashData) (a : Nat) : Prop :=
  ∃ p ∈ flashData.map Prod.fst, 128 * p ≤ a ∧ a < 128 * p + 128

instance (flashData : FlashData) (a : Nat) : Decidable (Listed flashData a) :=
  inferInstanceAs (Decidable (∃ p ∈ flashData.map Prod.fst, _))

/-- The pages below the bootloader section; the bootloader refuses the others. -/
def accepted (flashData : FlashData) : FlashData :=
  flashData.filter fun page => 128 * page.1 < 0x1800

theorem accepted_cons (page : Nat × PageBytes FLASH_PAGE_SIZE_BYTES) (flashData : FlashData) :
    accepted (page :: flashData) =
      if 128 * page.1 < 0x1800 then page :: accepted flashData else accepted flashData := by
  unfold accepted
  rw [List.filter_cons]
  simp only [decide_eq_true_eq]

theorem mem_accepted {page : Nat × PageBytes FLASH_PAGE_SIZE_BYTES} :
    page ∈ accepted flashData ↔ page ∈ flashData ∧ 128 * page.1 < 0x1800 := by
  unfold accepted
  rw [List.mem_filter, decide_eq_true_eq]

theorem accepted_distinct (distinct : (flashData.map Prod.fst).Nodup) :
    ((accepted flashData).map Prod.fst).Nodup :=
  distinct.sublist (List.filter_sublist.map Prod.fst)

theorem programmed_cons (page : Nat × PageBytes FLASH_PAGE_SIZE_BYTES) (flashData : FlashData)
    (content : Nat → BitVec 8) :
    programmed (page :: flashData) content =
      programmed flashData (write content (128 * page.1) page.2.toList) := rfl

theorem programmed_unlisted (h : ¬ Listed flashData a) :
    programmed flashData content a = content a := by
  induction flashData generalizing content with
  | nil => rfl
  | cons page rest ih =>
    have hpage : a < 128 * page.1 ∨ 128 * page.1 + 128 ≤ a := by
      by_contra hin
      exact h ⟨page.1, by simp, by omega, by omega⟩
    have hrest : ¬ Listed rest a := by
      rintro ⟨p, hp, hin⟩
      exact h ⟨p, by rw [List.map_cons]; exact List.mem_cons_of_mem _ hp, hin⟩
    rw [programmed_cons, ih hrest, write_page_outside hpage]

/-- What is written does not depend on what a listed page has held. -/
theorem programmed_congr (h : ∀ a, ¬ Listed flashData a → content a = content' a) :
    programmed flashData content = programmed flashData content' := by
  induction flashData generalizing content content' with
  | nil =>
    funext a
    exact h a (by rintro ⟨p, hp, _⟩; cases hp)
  | cons page rest ih =>
    rw [programmed_cons, programmed_cons]
    apply ih
    intro a ha
    by_cases hpage : a < 128 * page.1 ∨ 128 * page.1 + 128 ≤ a
    · rw [write_page_outside hpage, write_page_outside hpage]
      apply h
      rintro ⟨p, hp, hin⟩
      rw [List.map_cons] at hp
      rcases List.mem_cons.mp hp with rfl | hp
      · omega
      · exact ha ⟨p, hp, hin⟩
    · have hin : a - 128 * page.1 < FLASH_PAGE_SIZE_BYTES := by
        unfold FLASH_PAGE_SIZE_BYTES
        omega
      have hat : a = 128 * page.1 + (a - 128 * page.1) := by omega
      rw [hat, write_page_inside hin, write_page_inside hin]

theorem programmed_listed (distinct : (flashData.map Prod.fst).Nodup) {p : Nat}
    {page : PageBytes FLASH_PAGE_SIZE_BYTES} (hmem : (p, page) ∈ flashData) {i : Nat}
    (hi : i < FLASH_PAGE_SIZE_BYTES) :
    programmed flashData content (128 * p + i) = page[i] := by
  induction flashData generalizing content with
  | nil => cases hmem
  | cons first rest ih =>
    rw [List.map_cons, List.nodup_cons] at distinct
    rw [programmed_cons]
    rcases List.mem_cons.mp hmem with rfl | hmem
    · rw [programmed_unlisted, write_page_inside hi]
      rintro ⟨q, hq, hlo, hhi⟩
      have hsame : q = p := by
        unfold FLASH_PAGE_SIZE_BYTES at hi
        omega
      exact distinct.1 (hsame ▸ hq)
    · exact ih distinct.2 hmem

theorem readFlashData_distinct
    {minimalParse : ByteSlice → Option (Option (List ProgramHeader))} {elfContent : ByteSlice}
    (h : readFlashData minimalParse elfContent = .ok flashData) :
    (flashData.map Prod.fst).Nodup := by
  unfold readFlashData at h
  split at h
  next => cases h
  next => cases h
  next segments _ =>
    cases hfold : segments.foldlM (readSegment elfContent) ∅ with
    | err => simp [hfold, Bind.bind, Outcome.bind] at h
    | panic => simp [hfold, Bind.bind, Outcome.bind] at h
    | ok flashMap =>
      simp only [hfold, Outcome.ok_bind, Outcome.pure_eq] at h
      cases h
      exact (sortedPages_increasing flashMap).imp (fun hlt => Nat.ne_of_lt hlt)

end Programmed

namespace UpdateChip

section Steps

variable {ε : Type} {ep : Endpoint ε} {s t : UpdateChip} {a : UpdateStep ε}

/-- What a step does to the flags and the key, if anything. -/
def bootStep? : UpdateStep ε → Option BootStep
  | .boot step => some step
  | .app _ => none
  | .request _ _ => none
  | .cutOff _ _ _ cause ram => some (.reset cause ram)

theorem damage_boot (request : ControlRequest) (dataStage : ε) (left : List (BitVec 8)) :
    (s.damage ep request dataStage left).boot = s.boot := by
  unfold damage
  split
  next => split <;> rfl
  next => rfl

theorem boot_step (hstep : step ep s a = some t) :
    match bootStep? a with
    | some b => BootChip.step s.boot b = some t.boot
    | none => t.boot = s.boot := by
  cases a with
  | boot b =>
    cases b with
    | reset cause ram =>
      obtain rfl := Option.some.inj hstep
      rfl
    | proceed highFirst =>
      change s.proceed highFirst = some t at hstep
      unfold proceed at hstep
      split at hstep
      next => cases hstep
      next =>
        obtain ⟨boot, hboot, rfl⟩ := Option.map_eq_some_iff.mp hstep
        exact hboot
  | app event =>
    unfold step at hstep
    dsimp only at hstep
    split at hstep
    next =>
      obtain ⟨app, _, rfl⟩ := Option.map_eq_some_iff.mp hstep
      rfl
    next => cases hstep
  | request request dataStage =>
    unfold step at hstep
    dsimp only at hstep
    split at hstep
    next =>
      obtain rfl := Option.some.inj hstep
      rfl
    next => cases hstep
  | cutOff request dataStage left cause ram =>
    unfold step at hstep
    dsimp only at hstep
    split at hstep
    next =>
      obtain rfl := Option.some.inj hstep
      change some (s.boot.reset cause ram) =
        some ((s.damage ep request dataStage left).boot.reset cause ram)
      rw [damage_boot]
    next => cases hstep

/-- What happens to the chip is, as far as its two programs go, what may happen to `BootChip`. -/
theorem boot_run {s₀ : UpdateChip} {trace : List (UpdateChip × UpdateStep ε)}
    (run : Run (step ep) s₀ trace s) : ∃ trace', Run BootChip.step s₀.boot trace' s.boot := by
  induction run with
  | start => exact ⟨[], Run.start⟩
  | @next trace s a t _ hstep ih =>
    obtain ⟨trace', hrun⟩ := ih
    have hboot := boot_step hstep
    cases hlabel : bootStep? a with
    | none =>
      rw [hlabel] at hboot
      change t.boot = s.boot at hboot
      rw [hboot]
      exact ⟨trace', hrun⟩
    | some b =>
      rw [hlabel] at hboot
      exact ⟨_, hrun.next hboot⟩

/-- The page a request may write to, when the bootloader serves it. -/
def pageOf (ep : Endpoint ε) : UpdateStep ε → Option (BitVec 16)
  | .request request dataStage | .cutOff request dataStage _ _ _ => addressOf ep request dataStage
  | .boot _ | .app _ => none

/-- A request that is no SetReport, or waits for its first packet, does nothing. -/
theorem serve_other {request : ControlRequest} {dataStage : ε}
    (hother : addressOf ep request dataStage = none) :
    (s.serve ep request dataStage).bootloader = s.bootloader := by
  have hnot : ¬ (request.IsSetReport ∧ ep.isOUTReceived (ep.clearSETUP dataStage) = true) := by
    intro hreads
    unfold addressOf at hother
    rw [if_pos hreads] at hother
    cases hother
  by_cases hset : request.IsSetReport
  · have hwaits : waitOUT ep (ep.clearSETUP dataStage) = none :=
      if_neg fun hreceived => hnot ⟨hset, hreceived⟩
    have hnever : eventUsbDeviceControlRequest ep request (s.bootloader, dataStage) = none := by
      unfold eventUsbDeviceControlRequest
      rw [if_neg (not_not.mpr hset.1), if_pos hset.2, hwaits]
      rfl
    unfold serve requestState waitingFlash
    rw [hnever, hwaits]
  · have hignored : eventUsbDeviceControlRequest ep request (s.bootloader, dataStage) =
        some (s.bootloader, dataStage) := by
      unfold eventUsbDeviceControlRequest
      split
      next => rfl
      next hclass => exact if_neg fun hreport => hset ⟨not_not.mp hclass, hreport⟩
    unfold serve requestState
    rw [hignored]

/-- A step changes the page of its request at most, and only where that is one the bootloader
accepts. -/
theorem content_step (hstep : step ep s a = some t) {addr : Nat}
    (hother : ∀ address, pageOf ep a = some address → IsPageAddress address →
      addr < address.toNat ∨ address.toNat + SPM_PAGESIZE ≤ addr) :
    t.content addr = s.content addr := by
  cases a with
  | boot b =>
    cases b with
    | reset cause ram =>
      obtain rfl := Option.some.inj hstep
      rfl
    | proceed highFirst =>
      change s.proceed highFirst = some t at hstep
      unfold proceed at hstep
      split at hstep
      next => cases hstep
      next =>
        obtain ⟨boot, _, rfl⟩ := Option.map_eq_some_iff.mp hstep
        rfl
  | app event =>
    unfold step at hstep
    dsimp only at hstep
    split at hstep
    next =>
      obtain ⟨app, _, rfl⟩ := Option.map_eq_some_iff.mp hstep
      rfl
    next => cases hstep
  | request request dataStage =>
    unfold step at hstep
    dsimp only at hstep
    split at hstep
    next =>
      obtain rfl := Option.some.inj hstep
      have honly : WritesOnly s.bootloader (s.serve ep request dataStage).bootloader
          (requestAddress ep dataStage) :=
        requestState_writesOnly request (s.bootloader, dataStage)
      by_cases hreads : ¬ (request.IsSetReport ∧ ep.isOUTReceived (ep.clearSETUP dataStage) = true)
      · exact congrArg (fun b => b.flash.content addr) (serve_other (if_neg hreads))
      by_cases hpage : IsPageAddress (requestAddress ep dataStage)
      · exact honly.outside addr (hother _ (if_pos (not_not.mp hreads)) hpage)
      · have hrejected := honly.rejected (by
          rw [isPageAddress_iff] at hpage
          rw [BitVec.le_def]
          change _ ∨ 0x1800 ≤ _
          unfold SPM_PAGESIZE
          omega)
        exact congrFun hrejected addr
    next => cases hstep
  | cutOff request dataStage left cause ram =>
    unfold step at hstep
    dsimp only at hstep
    split at hstep
    next =>
      obtain rfl := Option.some.inj hstep
      change (s.damage ep request dataStage left).content addr = s.content addr
      unfold damage
      split
      next address haddress =>
        split
        next hpage =>
          have hlength : (left.take SPM_PAGESIZE).length ≤ SPM_PAGESIZE := List.length_take_le _ _
          rcases hother address haddress hpage with hlo | hhi
          · exact write_of_lt hlo
          · exact write_of_ge (by omega)
        next => rfl
      next => rfl
    next => cases hstep

/-- The programs never reach into the bootloader section. -/
theorem content_above (hstep : step ep s a = some t) {addr : Nat} (habove : 0x1800 ≤ addr) :
    t.content addr = s.content addr := by
  apply content_step hstep
  intro address _ hpage
  obtain ⟨hbound, haligned⟩ := isPageAddress_iff.mp hpage
  unfold SPM_PAGESIZE
  omega

end Steps

section Session

variable {ε : Type} (ep : Endpoint ε) {outPackets : ε → List (List (BitVec 8))}
  {s : UpdateChip} {flashData : FlashData} {reports : List (List (BitVec 8))}
  {dataStages : List ε} {start : ε}

theorem step_request (hs : s.Serving) (request : ControlRequest) (dataStage : ε) :
    step ep s (.request request dataStage) = some (s.serve ep request dataStage) :=
  if_pos hs

variable {ep}

theorem serve_of_setReport {dataStage : ε} {after : Bootloader}
    (h : setReport ep s.bootloader dataStage = some after) :
    s.serve ep setReportRequest dataStage = { s with bootloader := after, waits := false } := by
  obtain ⟨u, hu, rfl⟩ := Option.map_eq_some_iff.mp h
  unfold serve requestState
  rw [hu]
  rfl

theorem pageAddressIn_toBytes (packet : FlashPagePacket) :
    pageAddressIn packet.toBytes.tail = packet.address := by
  change (packet.address >>> 8).setWidth 8 ++ packet.address.setWidth 8 = packet.address
  ext i hi
  rw [BitVec.getElem_append]
  by_cases hlow : i < 8
  · rw [dif_pos hlow, BitVec.getElem_setWidth, BitVec.getLsbD_eq_getElem]
  · rw [dif_neg hlow, BitVec.getElem_setWidth, BitVec.getLsbD_ushiftRight,
      show 8 + (i - 8) = i by omega, BitVec.getLsbD_eq_getElem]

/-- A report with a page has it written, and the bootloader serves on. -/
theorem serve_page (documented : ep.Documented outPackets) (hs : s.Serving) {p : Nat}
    (hp : 128 * p < 0x1800) (page : PageBytes FLASH_PAGE_SIZE_BYTES) {dataStage : ε}
    (stage : DataStage (outPackets dataStage)
      (FlashPagePacket.toBytes ⟨0#8, BitVec.ofNat 16 (p * FLASH_PAGE_SIZE_BYTES), page⟩)) :
    (s.serve ep setReportRequest dataStage).Serving ∧
      (s.serve ep setReportRequest dataStage).content =
        write s.content (128 * p) page.toList := by
  obtain ⟨after, hset, hcontent⟩ := setReport_page documented hp page s.bootloader stage
  have honly : WritesOnly s.bootloader (s.serve ep setReportRequest dataStage).bootloader
      (requestAddress ep dataStage) :=
    requestState_writesOnly setReportRequest (s.bootloader, dataStage)
  have haddress := requestAddress_eq documented stage
  change _ = pageAddressIn (FlashPagePacket.toBytes _).tail at haddress
  rw [pageAddressIn_toBytes] at haddress
  have hserves := serve_of_setReport hset
  rw [hserves] at honly ⊢
  refine ⟨⟨hs.1, ?_, rfl⟩, hcontent⟩
  cases hafter : after.runBootloader with
  | true => rfl
  | false =>
    have hstart := honly.stops hs.2.1 hafter
    have hnat := congrArg BitVec.toNat (haddress.symm.trans hstart)
    change (BitVec.ofNat 16 (p * FLASH_PAGE_SIZE_BYTES)).toNat = 0xFFFF at hnat
    rw [BitVec.toNat_ofNat] at hnat
    unfold FLASH_PAGE_SIZE_BYTES at hnat
    omega

/-- A report with a page that does not lie below the bootloader section is refused. -/
theorem serve_refused (documented : ep.Documented outPackets) {p : Nat}
    (hp : ¬ 128 * p < 0x1800) (hfits : p * FLASH_PAGE_SIZE_BYTES < 2 ^ 16)
    (page : PageBytes FLASH_PAGE_SIZE_BYTES) {dataStage : ε}
    (stage : DataStage (outPackets dataStage)
      (FlashPagePacket.toBytes ⟨0#8, BitVec.ofNat 16 (p * FLASH_PAGE_SIZE_BYTES), page⟩)) :
    s.serve ep setReportRequest dataStage = { s with waits := false } := by
  have hword := pageAddressIn_toBytes
    ⟨0#8, BitVec.ofNat 16 (p * FLASH_PAGE_SIZE_BYTES), page⟩
  obtain ⟨e, hhandles, -⟩ := setReport_handles documented stage
    (show setReportRequest.IsSetReport by decide) s.bootloader
  change eventUsbDeviceControlRequest ep setReportRequest (s.bootloader, dataStage) =
    (handlePageAddress ep (pageAddressIn (FlashPagePacket.toBytes _).tail) (s.bootloader, e)).map _
      at hhandles
  have hnat : (BitVec.ofNat 16 (p * FLASH_PAGE_SIZE_BYTES)).toNat = p * FLASH_PAGE_SIZE_BYTES := by
    rw [BitVec.toNat_ofNat, Nat.mod_eq_of_lt hfits]
  unfold FLASH_PAGE_SIZE_BYTES at hnat
  have hstart : BitVec.ofNat 16 (p * FLASH_PAGE_SIZE_BYTES) ≠ COMMAND_STARTAPPLICATION := by
    intro heq
    have hbits := congrArg BitVec.toNat heq
    change (BitVec.ofNat 16 (p * 128)).toNat = 0xFFFF at hbits
    omega
  have hpage : ¬ IsPageAddress (BitVec.ofNat 16 (p * FLASH_PAGE_SIZE_BYTES)) := by
    rw [isPageAddress_iff]
    unfold FLASH_PAGE_SIZE_BYTES
    omega
  rw [hword, handlePageAddress_rejects hstart hpage s.bootloader] at hhandles
  have hset : setReport ep s.bootloader dataStage = some s.bootloader := by
    unfold setReport
    rw [hhandles]
    rfl
  exact serve_of_setReport hset

theorem serve_pages (documented : ep.Documented outPackets) (hs : s.Serving)
    (hreports : flash flashData = .ok reports)
    (hstages : List.Forall₂ (fun report e => DataStage (outPackets e) report) reports dataStages) :
    ∃ t, replay (step ep) s (dataStages.map (.request setReportRequest)) = some t ∧ t.Serving ∧
      t.boot = s.boot ∧ t.content = programmed (accepted flashData) s.content := by
  induction flashData generalizing s reports dataStages with
  | nil =>
    cases hreports
    cases hstages
    exact ⟨s, rfl, hs, rfl, rfl⟩
  | cons first rest ih =>
    obtain ⟨p, page⟩ := first
    have hfits : p * FLASH_PAGE_SIZE_BYTES < 2 ^ 16 := by
      by_contra hlarge
      have hpanics : pageAddressOf p = .panic := if_neg hlarge
      simp [flash, hpanics, Bind.bind, Outcome.bind] at hreports
    have haddress : pageAddressOf p = .ok (BitVec.ofNat 16 (p * FLASH_PAGE_SIZE_BYTES)) :=
      if_pos hfits
    cases hlater : flash rest with
    | err => simp [flash, haddress, hlater, Bind.bind, Outcome.bind] at hreports
    | panic => simp [flash, haddress, hlater, Bind.bind, Outcome.bind] at hreports
    | ok later =>
      simp only [flash, haddress, hlater, Outcome.ok_bind, Outcome.pure_eq] at hreports
      cases hreports
      obtain ⟨e, stages, hfirst, hstages', rfl⟩ := List.forall₂_cons_left_iff.mp hstages
      rw [List.map_cons, replay_step (step_request ep hs _ _), accepted_cons]
      by_cases hp : 128 * p < 0x1800
      · obtain ⟨hserving, hcontent⟩ := serve_page documented hs hp page hfirst
        obtain ⟨t, hreplay, ht, hboot, hpages⟩ := ih hserving hlater hstages'
        refine ⟨t, hreplay, ht, hboot, ?_⟩
        rw [hpages, hcontent, if_pos hp, programmed_cons]
      · rw [serve_refused documented hp hfits page hfirst, if_neg hp]
        exact ih ⟨hs.1, hs.2.1, rfl⟩ hlater hstages'

/-- The report of `enter_app` ends the main loop of the bootloader. -/
theorem serve_start (documented : ep.Documented outPackets)
    (stage : DataStage (outPackets start) (enterReport .app)) :
    s.serve ep setReportRequest start =
      { s with bootloader.runBootloader := false, waits := false } := by
  have hset : setReport ep s.bootloader start =
      some { s.bootloader with runBootloader := false } := by
    obtain ⟨e, hhandles, _⟩ := setReport_handles documented stage
      (show setReportRequest.IsSetReport by decide) s.bootloader
    unfold setReport
    rw [hhandles]
    unfold handlePageAddress
    rw [if_pos (by decide)]
    rfl
  exact serve_of_setReport hset

/-- The bytes of the report of `enter_bootloader`, as the application finds them. -/
def enterDataStage : Option (BitVec 8 × BitVec 8) :=
  match enterReport .bootloader with
  | [reportId, key] => some (reportId, key)
  | _ => none

/-- The steps from a watchdog reset to the bootloader's main loop. -/
def startBootloader (ram : BitVec 16) (choice : Nat → Bool) : List (UpdateStep ε) :=
  [.boot (.reset .watchdog ram), .boot (.proceed (choice 0)), .boot (.proceed (choice 1))]

def enterBootloader (ram : BitVec 16) (choice : Nat → Bool) : List (UpdateStep ε) :=
  .app (.request MouseApp.enterBootloaderRequest enterDataStage) :: startBootloader ram choice

/-- The steps from a reset to the application's first instruction. -/
def jump (choice : Nat → Bool) : List (UpdateStep ε) :=
  [.boot (.proceed (choice 4)), .boot (.proceed (choice 5)), .boot (.proceed (choice 6))]

def startApplication (choice : Nat → Bool) : List (UpdateStep ε) :=
  jump choice ++ [.boot (.proceed (choice 7))]

/-- The steps from the report of `enter_app` to the application. -/
def enterApp (start : ε) (ram : BitVec 16) (choice : Nat → Bool) : List (UpdateStep ε) :=
  [.request setReportRequest start, .boot (.proceed (choice 2)), .boot (.proceed (choice 3)),
    .boot (.reset .watchdog ram)] ++ startApplication choice

/-- The bootloader runs, the pages are sent to it, and then it is told to start the application. -/
def flashing (dataStages : List ε) (start : ε) (ram : BitVec 16) (choice : Nat → Bool) :
    List (UpdateStep ε) :=
  dataStages.map (.request setReportRequest) ++ enterApp start ram choice

variable (ep)

theorem step_proceed {highFirst : Bool} {boot : BootChip}
    (hleaves : s.boot.phase = .runBootloader → s.bootloader.runBootloader = false ∧ s.waits = false)
    (hboot : s.boot.proceed highFirst = some boot) :
    step ep s (.boot (.proceed highFirst)) = some { s with boot } := by
  change s.proceed highFirst = _
  unfold proceed
  rw [if_neg, hboot]
  · rfl
  · rintro ⟨hphase, hserves⟩
    obtain ⟨hrun, hwaits⟩ := hleaves hphase
    rw [hrun, hwaits] at hserves
    simp at hserves

theorem step_reset (cause : ResetCause) (ram : BitVec 16) :
    step ep s (.boot (.reset cause ram)) = some (s.reset cause ram) := rfl

/-- A watchdog reset that finds no magic key ends in the bootloader. -/
theorem replay_startBootloader (hkey : s.boot.magicBootKey ≠ MAGIC_BOOT_KEY) (ram : BitVec 16)
    (choice : Nat → Bool) :
    ∃ t, replay (step ep) s (startBootloader ram choice) = some t ∧ t.Serving ∧
      t.content = s.content := by
  have hstays : ¬ jumpsToApplication (s.reset .watchdog ram).boot.mcusr
      (s.reset .watchdog ram).boot.magicBootKey = true := by
    rw [BootChip.jumpsToApplication_iff]
    change ¬ ((ResetCause.watchdog.mcusr s.boot.mcusr).getLsbD WDRF = true → _)
    rw [BootChip.mcusr_watchdog]
    exact fun h => hkey (h rfl)
  have hcheck : (s.reset .watchdog ram).boot.proceed (choice 0) =
      some { (s.reset .watchdog ram).boot with phase := .clearFlags } := if_neg hstays
  have hfirst := step_proceed ep (fun h => BootPhase.noConfusion h) hcheck
  refine ⟨_, (replay_step (step_reset ep .watchdog ram)).trans ((replay_step hfirst).trans
    ((replay_step (step_proceed ep (fun h => BootPhase.noConfusion h) rfl)).trans rfl)), ?_, ?_⟩
  · exact ⟨rfl, rfl, rfl⟩
  · rfl

theorem replay_jump (hphase : s.boot.phase = .applicationJumpCheck)
    (hjumps : jumpsToApplication s.boot.mcusr s.boot.magicBootKey = true) (choice : Nat → Bool) :
    replay (step ep) s (jump choice) =
      some { s with boot := { s.boot with phase := .setupHardware, magicBootKey := 0#16 } } := by
  have hcheck : s.boot.proceed (choice 4) = some { s.boot with phase := .clearKey } := by
    unfold BootChip.proceed
    rw [hphase]
    exact if_pos hjumps
  have hleaves : s.boot.phase = .runBootloader →
      s.bootloader.runBootloader = false ∧ s.waits = false := by
    rw [hphase]
    exact fun h => BootPhase.noConfusion h
  unfold jump
  rw [replay_step (step_proceed ep hleaves hcheck),
    replay_step (step_proceed ep (fun h => BootPhase.noConfusion h) rfl),
    replay_step (step_proceed ep (fun h => BootPhase.noConfusion h) rfl)]
  change some _ = some _
  rw [BootChip.storeByte_both]

theorem replay_startApplication (hphase : s.boot.phase = .applicationJumpCheck)
    (hjumps : jumpsToApplication s.boot.mcusr s.boot.magicBootKey = true) (choice : Nat → Bool) :
    replay (step ep) s (startApplication choice) = some { s with boot := { s.boot with
      phase := .application, mcusr := 0#8, magicBootKey := 0#16 } } := by
  unfold startApplication
  rw [replay_append, replay_jump ep hphase hjumps, Option.bind_some]
  exact replay_step (step_proceed ep (fun h => BootPhase.noConfusion h) rfl)

/-- Whichever byte is stored first, the key is the magic one when the bootloader waits for its
reset. -/
theorem replay_waitForReset (hphase : s.boot.phase = .runBootloader)
    (hrun : s.bootloader.runBootloader = false) (hwaits : s.waits = false) (first second : Bool) :
    replay (step ep) s [.boot (.proceed first), .boot (.proceed second)] =
      some { s with
        boot := { s.boot with
          phase := .waitForReset
          magicBootKey := MAGIC_BOOT_KEY
          keyWritten := true } } := by
  have hfirst : s.boot.proceed first = some { s.boot with
      phase := .writeOtherByte !first
      magicBootKey := storeByte s.boot.magicBootKey MAGIC_BOOT_KEY first } := by
    unfold BootChip.proceed
    rw [hphase]
  rw [replay_step (step_proceed ep (fun _ => ⟨hrun, hwaits⟩) hfirst),
    replay_step (step_proceed ep (fun h => BootPhase.noConfusion h) rfl)]
  change some _ = some _
  rw [BootChip.storeByte_both]

variable {ep}

theorem replay_enterApp (documented : ep.Documented outPackets) (hs : s.Serving)
    (stage : DataStage (outPackets start) (enterReport .app)) (ram : BitVec 16)
    (choice : Nat → Bool) :
    ∃ t, replay (step ep) s (enterApp start ram choice) = some t ∧ t.boot.phase = .application ∧
      t.app = .start ∧ t.content = s.content := by
  have hserve := step_request ep hs setReportRequest start
  rw [serve_start documented stage] at hserve
  have hwait := replay_waitForReset ep
    (s := { s with bootloader.runBootloader := false, waits := false }) hs.1 rfl rfl (choice 2)
    (choice 3)
  obtain ⟨u, hu, hkey, hkept⟩ : ∃ u, replay (step ep) s [.request setReportRequest start,
      .boot (.proceed (choice 2)), .boot (.proceed (choice 3))] = some u ∧
      u.boot.magicBootKey = MAGIC_BOOT_KEY ∧ u.content = s.content :=
    ⟨_, (replay_step hserve).trans hwait, rfl, rfl⟩
  have hjumps := (BootChip.jumpsToApplication_iff (u.reset .watchdog ram).boot.mcusr
    (u.reset .watchdog ram).boot.magicBootKey).mpr (fun _ => hkey)
  have hstart := replay_startApplication ep (s := u.reset .watchdog ram) rfl hjumps choice
  have hshape : enterApp start ram choice = [.request setReportRequest start,
      .boot (.proceed (choice 2)), .boot (.proceed (choice 3))] ++
        (.boot (.reset .watchdog ram) :: startApplication choice) := rfl
  have hsteps : replay (step ep) s (enterApp start ram choice) =
      replay (step ep) (u.reset .watchdog ram) (startApplication choice) := by
    rw [hshape, replay_append, hu, Option.bind_some, replay_step (step_reset ep .watchdog ram)]
  exact ⟨_, hsteps.trans hstart, rfl, rfl, hkept⟩

/-- The bootloader writes the pages and starts the application. -/
theorem replay_flashing (documented : ep.Documented outPackets) (hs : s.Serving)
    (hreports : flash flashData = .ok reports)
    (hstages : List.Forall₂ (fun report e => DataStage (outPackets e) report) reports dataStages)
    (hstart : DataStage (outPackets start) (enterReport .app)) (ram : BitVec 16)
    (choice : Nat → Bool) :
    ∃ t, replay (step ep) s (flashing dataStages start ram choice) = some t ∧
      t.boot.phase = .application ∧ t.app = .start ∧
      t.content = programmed (accepted flashData) s.content := by
  obtain ⟨u, hpages, hu, _, hcontent⟩ := serve_pages documented hs hreports hstages
  obtain ⟨t, henter, hphase, happ, hkept⟩ := replay_enterApp documented hu hstart ram choice
  refine ⟨t, ?_, hphase, happ, hkept.trans hcontent⟩
  unfold flashing
  rw [replay_append, hpages, Option.bind_some, henter]

/-- A file whose segment of two bytes is at the start of the flash. -/
def firstBytesHeader : ProgramHeader := ⟨PT_LOAD, 84#64, 2#64, 0#64⟩

def firstBytesElf : ByteSlice :=
  ⟨(((lastBytesElf.val.set 60 0x00).set 61 0x00).set 64 0x00).set 65 0x00, by decide⟩

def firstBytesPage : PageBytes FLASH_PAGE_SIZE_BYTES :=
  PageBytes.copyFrom (Vector.replicate _ 0#8) 0 [0xAA#8, 0xBB#8]

theorem readFlashData_firstBytes :
    readFlashData (fun _ => some (some [firstBytesHeader])) firstBytesElf =
      .ok [(0, firstBytesPage)] := by
  obtain ⟨flashMap, hfold, hentries⟩ : ∃ flashMap,
      [firstBytesHeader].foldlM (readSegment firstBytesElf) ∅ = .ok flashMap ∧
        flashMap.entries.map (fun e => (e.1, e.2)) = [(0, firstBytesPage)] :=
    ⟨_, rfl, by decide +kernel⟩
  have hsorted : sortedPages flashMap = [(0, firstBytesPage)] := by
    unfold sortedPages
    rw [hentries]
    exact List.mergeSort_singleton _
  rw [← hsorted]
  exact Outcome.bind_eq_ok.mpr ⟨flashMap, hfold, rfl⟩

def firstBytesReport : List (BitVec 8) := FlashPagePacket.toBytes ⟨0#8, 0#16, firstBytesPage⟩

theorem flash_firstBytes : flash [(0, firstBytesPage)] = .ok [firstBytesReport] := by
  have haddress : pageAddressOf 0 = .ok 0#16 := rfl
  unfold flash flash
  rw [haddress]
  rfl

/-- A report as the host controller sends it. -/
def stageOf (report : List (BitVec 8)) : List (List (BitVec 8)) := chunks 8 report.tail

theorem stageOf_firstBytes : DataStage (stageOf firstBytesReport) firstBytesReport := by
  have hlength := flash_report_length flash_firstBytes firstBytesReport (List.mem_singleton.mpr rfl)
  exact dataStage_chunks (by decide) (by decide) (by rw [hlength])

theorem stageOf_enterApp : DataStage (stageOf (enterReport .app)) (enterReport .app) :=
  dataStage_chunks (by decide) (by decide) (by decide)

/-- From the application on, a session of the host ends in the application again, with what the
file puts on each page below the bootloader section in the flash, and all else as it was. -/
theorem update_session (documented : ep.Documented outPackets) {content : Nat → BitVec 8}
    {left : BitVec 16} {trace : List (UpdateChip × UpdateStep ε)}
    (run : Run (step ep) (powerOn content left) trace s) (happ : s.boot.phase = .application)
    (hruns : s.app.halted = false)
    {minimalParse : ByteSlice → Option (Option (List ProgramHeader))} {elfContent : ByteSlice}
    (hread : readFlashData minimalParse elfContent = .ok flashData)
    (hreports : flash flashData = .ok reports)
    (hstages : List.Forall₂ (fun report e => DataStage (outPackets e) report) reports dataStages)
    (hstart : DataStage (outPackets start) (enterReport .app)) (ram : BitVec 16)
    (choice : Nat → Bool) :
    ∃ t, replay (step ep) s (enterBootloader ram choice ++ flashing dataStages start ram choice) =
        some t ∧
      t.boot.phase = .application ∧ t.app = .start ∧
      (∀ p page, (p, page) ∈ flashData → 128 * p < 0x1800 →
        ∀ (i : Nat) (hi : i < FLASH_PAGE_SIZE_BYTES), t.content (128 * p + i) = page[i]) ∧
      ∀ a, ¬ Listed (accepted flashData) a → t.content a = s.content a := by
  have hkey : s.boot.magicBootKey ≠ MAGIC_BOOT_KEY := by
    obtain ⟨trace', hboot⟩ := boot_run run
    have hstored := (BootChip.stored_run hboot).1
    unfold BootChip.Stored at hstored
    rw [happ] at hstored
    rw [hstored.1]
    decide
  have hrequest : step ep s (.app (.request MouseApp.enterBootloaderRequest enterDataStage)) =
      some { s with app := { s.app with halted := true } } := by
    unfold step
    dsimp only
    rw [if_pos happ]
    unfold MouseApp.step
    rw [hruns]
    rfl
  obtain ⟨u, hboot, hu, hkept⟩ := replay_startBootloader ep
    (s := { s with app := { s.app with halted := true } }) hkey ram choice
  obtain ⟨t, hflash, hphase, hstarted, hcontent⟩ :=
    replay_flashing documented hu hreports hstages hstart ram choice
  refine ⟨t, ?_, hphase, hstarted, ?_, ?_⟩
  · unfold enterBootloader
    rw [List.cons_append, replay_step hrequest, replay_append, hboot, Option.bind_some, hflash]
  · intro p page hmem hp i hi
    rw [hcontent, programmed_listed (accepted_distinct (readFlashData_distinct hread))
      (mem_accepted.mpr ⟨hmem, hp⟩) hi]
  · intro a ha
    rw [hcontent, programmed_unlisted ha, hkept]
    rfl

theorem update_session_firstBytes :
    ∃ trace s t, Run (step fifoEndpoint) (powerOn (fun _ => 0x55#8) 0#16) trace s ∧
      replay (step fifoEndpoint) s (enterBootloader 0#16 (fun _ => true) ++
        flashing [stageOf firstBytesReport] (stageOf (enterReport .app)) 0#16 (fun _ => true)) =
          some t ∧
      t.boot.phase = .application ∧ t.content 1 = 0xBB#8 ∧ t.content 128 = s.content 128 := by
  have hreplay := replay_startApplication fifoEndpoint
    (s := powerOn (fun _ => 0x55#8) 0#16) rfl (by decide) (fun _ => true)
  obtain ⟨trace, run, _⟩ := replay_run hreplay
  obtain ⟨t, hsession, hphase, _, hlisted, hothers⟩ :=
    update_session fifoEndpoint_documented run rfl rfl readFlashData_firstBytes
      flash_firstBytes (.cons stageOf_firstBytes .nil) stageOf_enterApp 0#16 (fun _ => true)
  have hbyte : firstBytesPage[1] = 0xBB#8 := by
    unfold firstBytesPage PageBytes.copyFrom
    simp
  have hwritten := hlisted 0 firstBytesPage (List.mem_singleton.mpr rfl) (by decide) 1 (by decide)
  rw [hbyte] at hwritten
  exact ⟨trace, _, t, run, hsession, hphase, hwritten, hothers 128 (by decide)⟩

/-- A power-on whose application does not respond, so that the watchdog brings the bootloader
up, before or after the application has cleared the reset flags. -/
def recovery (clears : Bool) (ram : BitVec 16) (choice : Nat → Bool) : List (UpdateStep ε) :=
  .boot (.reset .powerOn ram) :: (if clears then startApplication choice else jump choice) ++
    startBootloader ram choice

theorem replay_recovery (ep : Endpoint ε) (s : UpdateChip) (clears : Bool) (ram : BitVec 16)
    (choice : Nat → Bool) :
    ∃ t, replay (step ep) s (recovery clears ram choice) = some t ∧ t.Serving ∧
      t.content = s.content := by
  have hflag : (1#8 <<< PORF).getLsbD WDRF ≠ true := by decide
  have hjumps := (BootChip.jumpsToApplication_iff (s.reset .powerOn ram).boot.mcusr
    (s.reset .powerOn ram).boot.magicBootKey).mpr (fun hset => absurd hset hflag)
  obtain ⟨u, hu, hkey, hkept⟩ : ∃ u, replay (step ep) (s.reset .powerOn ram)
      (if clears then startApplication choice else jump choice) = some u ∧
      u.boot.magicBootKey = 0#16 ∧ u.content = s.content := by
    have hjump := replay_jump ep (s := s.reset .powerOn ram) rfl hjumps choice
    cases clears with
    | true => exact ⟨_, replay_startApplication ep rfl hjumps choice, rfl, rfl⟩
    | false => exact ⟨_, hjump, rfl, rfl⟩
  obtain ⟨t, hboot, ht, hcontent⟩ := replay_startBootloader ep
    (show u.boot.magicBootKey ≠ MAGIC_BOOT_KEY by rw [hkey]; decide) ram choice
  refine ⟨t, ?_, ht, hcontent.trans hkept⟩
  unfold recovery
  rw [List.cons_append, replay_step (step_reset ep .powerOn ram), replay_append, hu,
    Option.bind_some, hboot]

theorem pageOf_recovery {a : UpdateStep ε} {clears : Bool} {ram : BitVec 16} {choice : Nat → Bool}
    (h : a ∈ recovery clears ram choice) : pageOf ep a = none := by
  have hboot : ∀ b ∈ recovery clears ram choice, ∃ step, b = UpdateStep.boot (ε := ε) step := by
    unfold recovery startApplication jump startBootloader
    cases clears <;> simp
  obtain ⟨step, rfl⟩ := hboot a h
  rfl

/-- The requests of the run are about pages of this file, where they are about pages at all. -/
def Attempts (ep : Endpoint ε) (flashData : FlashData) (_ : UpdateChip) (a : UpdateStep ε) : Prop :=
  ∀ address ∈ pageOf ep a, IsPageAddress address → Listed flashData address.toNat

instance (ep : Endpoint ε) (flashData : FlashData) (s : UpdateChip) (a : UpdateStep ε) :
    Decidable (Attempts ep flashData s a) :=
  inferInstanceAs (Decidable (∀ address ∈ pageOf ep a, _))

/-- However often a session has been cut off, in a page or between pages, the pages it was not
about are as they were before. -/
theorem attempts_run {s₀ : UpdateChip} {trace : List (UpdateChip × UpdateStep ε)}
    (run : Run (step ep) s₀ trace s) (attempts : AllSteps (Attempts ep flashData) trace) :
    AllStates (fun s => ∀ addr, ¬ Listed (accepted flashData) addr →
      s.content addr = s₀.content addr) trace s := by
  refine run.invariant attempts (fun _ _ => rfl) ?_
  intro s a t hs ha hstep addr hunlisted
  refine (content_step hstep ?_).trans (hs addr hunlisted)
  intro address hpage haddress
  obtain ⟨p, hp, hlo, hhi⟩ := ha address hpage haddress
  obtain ⟨hbound, haligned⟩ := isPageAddress_iff.mp haddress
  obtain ⟨page, hpage, rfl⟩ := List.mem_map.mp hp
  have haccepted : page ∈ accepted flashData := mem_accepted.mpr ⟨hpage, by omega⟩
  unfold SPM_PAGESIZE
  by_contra hin
  exact hunlisted ⟨page.1, List.mem_map_of_mem haccepted, by omega, by omega⟩

/-- The first attempt is cut off after a packet, and leaves the page half written. -/
def firstPacket : UpdateStep (List (List (BitVec 8))) :=
  .cutOff setReportRequest [[0x00#8, 0x00#8, 0xAA#8, 0xBB#8]] [0xAA#8, 0x00#8] .brownOut 0#16

theorem firstPacket_run :
    ∃ trace s, Run (step fifoEndpoint) (powerOn (fun _ => 0x55#8) 0#16) trace s ∧
      trace.map Prod.snd = (recovery true 0#16 (fun _ => true) ++ [firstPacket]).reverse ∧
      AllSteps (Attempts fifoEndpoint [(0, firstBytesPage)]) trace := by
  obtain ⟨u, hrecovery, hserving, _⟩ := replay_recovery fifoEndpoint
    (powerOn (fun _ => 0x55#8) 0#16) true 0#16 (fun _ => true)
  obtain ⟨s, hpacket⟩ : ∃ s, step fifoEndpoint u firstPacket = some s := ⟨_, if_pos hserving⟩
  have hreplay : replay (step fifoEndpoint) (powerOn (fun _ => 0x55#8) 0#16)
      (recovery true 0#16 (fun _ => true) ++ [firstPacket]) = some s := by
    rw [replay_append, hrecovery, Option.bind_some, replay_step hpacket]
    rfl
  obtain ⟨trace, run, labels⟩ := replay_run hreplay
  refine ⟨trace, s, run, labels, ?_⟩
  intro p hp
  have hlabel : p.2 ∈ trace.map Prod.snd := List.mem_map_of_mem hp
  rw [labels, List.mem_reverse, List.mem_append, List.mem_singleton] at hlabel
  rcases hlabel with hlabel | hlabel
  · intro address haddress
    rw [pageOf_recovery hlabel] at haddress
    cases haddress
  · intro address haddress _
    have hpage : pageOf fifoEndpoint firstPacket = some 0#16 := by decide
    rw [hlabel, hpage] at haddress
    obtain rfl := Option.mem_some_iff.mp haddress
    decide

/-- The programs never write to the bootloader section, and a power-on always leads back to the
bootloader, without a response of the application and with the flash as it was. -/
theorem recovers_run {s₀ : UpdateChip} {trace : List (UpdateChip × UpdateStep ε)}
    (run : Run (step ep) s₀ trace s) :
    AllStates (fun s => (∀ addr, 0x1800 ≤ addr → s.content addr = s₀.content addr) ∧
      ∀ clears ram choice, ∃ t, replay (step ep) s (recovery clears ram choice) = some t ∧
        t.Serving ∧ t.content = s.content) trace s := by
  have allowed : AllSteps (fun _ _ => True) trace := fun _ _ => trivial
  have habove : AllStates (fun s => ∀ addr, 0x1800 ≤ addr → s.content addr = s₀.content addr)
      trace s :=
    run.invariant allowed (fun _ _ => rfl)
      (fun _ _ _ hs _ hstep addr haddr => (content_above hstep haddr).trans (hs addr haddr))
  exact habove.imp (fun s hs => ⟨hs, replay_recovery ep s⟩)

theorem recovers_run_firstPacket :
    ∃ trace s, Run (step fifoEndpoint) (powerOn (fun _ => 0x55#8) 0#16) trace s ∧
      s.content 0x1800 = 0x55#8 ∧
      ∃ t, replay (step fifoEndpoint) s (recovery false 0#16 (fun _ => false)) = some t ∧
        t.Serving := by
  obtain ⟨trace, s, run, _, _⟩ := firstPacket_run
  obtain ⟨habove, hrecovers⟩ := (recovers_run run).1
  obtain ⟨t, hreplay, hserving, _⟩ := hrecovers false 0#16 (fun _ => false)
  exact ⟨trace, s, run, habove 0x1800 (by decide), t, hreplay, hserving⟩

/-- Once a session gets through, the flash is as if none had been cut off before it: it has the
pages that the bootloader accepts. -/
theorem update_retried (documented : ep.Documented outPackets) {s₀ : UpdateChip}
    {trace : List (UpdateChip × UpdateStep ε)} (run : Run (step ep) s₀ trace s)
    (attempts : AllSteps (Attempts ep flashData) trace)
    (hreports : flash flashData = .ok reports)
    (hstages : List.Forall₂ (fun report e => DataStage (outPackets e) report) reports dataStages)
    (hstart : DataStage (outPackets start) (enterReport .app)) (clears : Bool) (ram : BitVec 16)
    (choice : Nat → Bool) :
    ∃ t, replay (step ep) s (recovery clears ram choice ++ flashing dataStages start ram choice) =
        some t ∧
      t.boot.phase = .application ∧ t.content = programmed (accepted flashData) s₀.content := by
  obtain ⟨u, hrecovery, hu, hkept⟩ := replay_recovery ep s clears ram choice
  obtain ⟨t, hflash, hphase, _, hcontent⟩ :=
    replay_flashing documented hu hreports hstages hstart ram choice
  refine ⟨t, ?_, hphase, ?_⟩
  · rw [replay_append, hrecovery, Option.bind_some, hflash]
  · rw [hcontent, hkept]
    exact programmed_congr (attempts_run run attempts).1

theorem update_retried_firstPacket :
    ∃ trace s t, Run (step fifoEndpoint) (powerOn (fun _ => 0x55#8) 0#16) trace s ∧
      replay (step fifoEndpoint) s (recovery true 0#16 (fun _ => true) ++
        flashing [stageOf firstBytesReport] (stageOf (enterReport .app)) 0#16 (fun _ => true)) =
          some t ∧
      t.content = programmed [(0, firstBytesPage)] (fun _ => 0x55#8) := by
  obtain ⟨trace, s, run, _, attempts⟩ := firstPacket_run
  obtain ⟨t, hsession, _, hcontent⟩ := update_retried fifoEndpoint_documented run attempts
    flash_firstBytes (.cons stageOf_firstBytes .nil) stageOf_enterApp true 0#16 (fun _ => true)
  exact ⟨trace, s, t, run, hsession, hcontent⟩

end Session

end UpdateChip

end MyMouse
