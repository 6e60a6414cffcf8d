import MyMouse.Memory
import Mathlib.Data.List.Basic

namespace MyMouse

open Memory

def SPM_PAGESIZE : Nat := 128
def BOOT_START_ADDR : BitVec 16 := 0x1800#16
def COMMAND_STARTAPPLICATION : BitVec 16 := 0xFFFF#16

def CONTROL_REQTYPE_TYPE : BitVec 8 := 0x60#8
def CONTROL_REQTYPE_RECIPIENT : BitVec 8 := 0x1F#8
def REQTYPE_CLASS : BitVec 8 := 0x20#8
def REQREC_INTERFACE : BitVec 8 := 0x01#8
def HID_REQ_SetReport : BitVec 8 := 0x09#8

structure ControlRequest where
  bmRequestType : BitVec 8
  bRequest : BitVec 8
  deriving DecidableEq

/-- A HID SetReport request to the interface. -/
def ControlRequest.IsSetReport (request : ControlRequest) : Prop :=
  request.bmRequestType &&& (CONTROL_REQTYPE_TYPE ||| CONTROL_REQTYPE_RECIPIENT) =
      REQTYPE_CLASS ||| REQREC_INTERFACE ∧
    request.bRequest = HID_REQ_SetReport

instance (request : ControlRequest) : Decidable request.IsSetReport :=
  inferInstanceAs (Decidable (_ ∧ _))

/-- The functions of LUFA on the selected control endpoint, whose state is `ε`. -/
structure Endpoint (ε : Type) where
  isOUTReceived : ε → Bool
  bytesInEndpoint : ε → Nat
  read16LE : ε → BitVec 16 × ε
  clearSETUP : ε → ε
  clearOUT : ε → ε
  stallTransaction : ε → ε
  clearStatusStage : ε → ε

/-- The documented behaviour of these functions, by the OUT packets of the data stage not
acknowledged yet: the first one is in the bank, less what has been read of it. -/
structure Endpoint.Documented {ε : Type} (ep : Endpoint ε)
    (outPackets : ε → List (List (BitVec 8))) : Prop where
  isOUTReceived : ∀ e, ep.isOUTReceived e = true ↔ outPackets e ≠ []
  bytesInEndpoint : ∀ e packet rest, outPackets e = packet :: rest →
    ep.bytesInEndpoint e = packet.length
  read16LE : ∀ e lo hi packet rest, outPackets e = (lo :: hi :: packet) :: rest →
    (ep.read16LE e).1 = hi ++ lo ∧ outPackets (ep.read16LE e).2 = packet :: rest
  clearSETUP : ∀ e, outPackets (ep.clearSETUP e) = outPackets e
  clearOUT : ∀ e packet rest, outPackets e = packet :: rest → outPackets (ep.clearOUT e) = rest

structure BootFlash where
  content : Nat → BitVec 8
  pageBuffer : Nat → BitVec 8

def pageStart (addr : BitVec 16) : Nat := addr.toNat / SPM_PAGESIZE * SPM_PAGESIZE

namespace BootFlash

def pageErase (addr : BitVec 16) (flash : BootFlash) : BootFlash :=
  { flash with
    content := write flash.content (pageStart addr) (List.replicate SPM_PAGESIZE 0xFF#8) }

/-- The word goes to the word of the buffer its address stands for in the page. -/
def pageFill (addr word : BitVec 16) (flash : BootFlash) : BootFlash :=
  { flash with
    pageBuffer := write flash.pageBuffer (addr.toNat % SPM_PAGESIZE / 2 * 2)
      [word.setWidth 8, (word >>> 8).setWidth 8] }

/-- The buffer erases itself when it has been written. -/
def pageWrite (addr : BitVec 16) (flash : BootFlash) : BootFlash :=
  { content := write flash.content (pageStart addr)
      ((List.range SPM_PAGESIZE).map flash.pageBuffer)
    pageBuffer := fun _ => 0xFF#8 }

end BootFlash

structure Bootloader where
  runBootloader : Bool
  flash : BootFlash

section Handler

variable {ε : Type} (ep : Endpoint ε)

/-- `while (!Endpoint_IsOUTReceived());`, which never ends once the host has nothing more
to send. -/
def waitOUT (e : ε) : Option ε := if ep.isOUTReceived e then some e else none

/-- One turn of the loop over the words of a page. -/
def fillWord (pageAddress : BitVec 16) (s : BootFlash × ε) (pageWord : Nat) :
    Option (BootFlash × ε) := do
  let e ← if ep.bytesInEndpoint s.2 = 0 then waitOUT ep (ep.clearOUT s.2) else some s.2
  let (word, e) := ep.read16LE e
  some (s.1.pageFill (pageAddress + BitVec.ofNat 16 pageWord <<< 1) word, e)

def programPage (pageAddress : BitVec 16) (s : BootFlash × ε) : Option (BootFlash × ε) := do
  let (flash, e) ← (List.range' 0 (SPM_PAGESIZE / 2)).foldlM (fillWord ep pageAddress)
    (s.1.pageErase pageAddress, s.2)
  some (flash.pageWrite pageAddress, e)

/-- What a SetReport request does once its page address has been read. -/
def handlePageAddress (pageAddress : BitVec 16) (s : Bootloader × ε) : Option (Bootloader × ε) :=
  let isPageAddressAligned := pageAddress &&& (BitVec.ofNat 16 SPM_PAGESIZE - 1) = 0#16
  if pageAddress = COMMAND_STARTAPPLICATION then some ({ s.1 with runBootloader := false }, s.2)
  else if ¬ (pageAddress < BOOT_START_ADDR ∧ isPageAddressAligned) then
    some (s.1, ep.stallTransaction s.2)
  else do
    let (flash, e) ← programPage ep pageAddress (s.1.flash, s.2)
    some ({ s.1 with flash := flash }, e)

/-- `EVENT_USB_Device_ControlRequest`; `none` when it waits for a packet that never comes. -/
def eventUsbDeviceControlRequest (request : ControlRequest) (s : Bootloader × ε) :
    Option (Bootloader × ε) :=
  if request.bmRequestType &&& (CONTROL_REQTYPE_TYPE ||| CONTROL_REQTYPE_RECIPIENT) ≠
      REQTYPE_CLASS ||| REQREC_INTERFACE then some s
  else if request.bRequest = HID_REQ_SetReport then do
    let e ← waitOUT ep (ep.clearSETUP s.2)
    let (bootloader, e) ← handlePageAddress ep (ep.read16LE e).1 (s.1, (ep.read16LE e).2)
    some (bootloader, ep.clearStatusStage (ep.clearOUT e))
  else some s

/-- The SetReport request of the host, as its HID interface sends it. -/
def setReportRequest : ControlRequest := ⟨0x21#8, HID_REQ_SetReport⟩

def setReport (bootloader : Bootloader) (dataStage : ε) : Option Bootloader :=
  (eventUsbDeviceControlRequest ep setReportRequest (bootloader, dataStage)).map Prod.fst

end Handler

/-- What is left of a data stage, of packets of whole words. -/
structure Streams {ε : Type} (outPackets : ε → List (List (BitVec 8))) (e : ε)
    (bytes : List (BitVec 8)) : Prop where
  bank : outPackets e ≠ []
  flatten : (outPackets e).flatten = bytes
  even : ∀ packet ∈ outPackets e, packet.length % 2 = 0
  nonempty : ∀ packet ∈ (outPackets e).tail, packet ≠ []

section Stream

variable {ε : Type} {ep : Endpoint ε} {outPackets : ε → List (List (BitVec 8))} {e : ε}
  {lo hi : BitVec 8} {bytes : List (BitVec 8)}

theorem Streams.read (documented : ep.Documented outPackets)
    (h : Streams outPackets e (lo :: hi :: bytes)) (hbank : (outPackets e).head? ≠ some []) :
    (ep.read16LE e).1 = hi ++ lo ∧ Streams outPackets (ep.read16LE e).2 bytes := by
  obtain ⟨bank, flatten, even, nonempty⟩ := h
  cases hpackets : outPackets e with
  | nil => exact absurd hpackets bank
  | cons packet rest =>
    simp only [hpackets, List.head?_cons, ne_eq, Option.some.injEq, List.flatten_cons,
      List.mem_cons, forall_eq_or_imp, List.tail_cons] at flatten even nonempty hbank
    match packet, hbank, even.1 with
    | a :: b :: packet', _, heven =>
      simp only [List.cons_append, List.cons.injEq] at flatten
      obtain ⟨rfl, rfl, hbytes⟩ := flatten
      obtain ⟨hword, hafter⟩ := documented.read16LE e a b packet' rest hpackets
      refine ⟨hword, by simp [hafter], by simp [hafter, hbytes], ?_, by simpa [hafter] using nonempty⟩
      rw [hafter]
      intro q hq
      rcases List.mem_cons.mp hq with rfl | hq
      · simp only [List.length_cons] at heven
        omega
      · exact even.2 q hq

/-- The handler re-arms the endpoint when the bank runs dry, and then reads on. -/
theorem fillWord_ok (documented : ep.Documented outPackets)
    (h : Streams outPackets e (lo :: hi :: bytes)) (flash : BootFlash) (pageAddress : BitVec 16)
    (pageWord : Nat) :
    ∃ e', fillWord ep pageAddress (flash, e) pageWord = some
        (flash.pageFill (pageAddress + BitVec.ofNat 16 pageWord <<< 1) (hi ++ lo), e') ∧
      Streams outPackets e' bytes := by
  cases hpackets : outPackets e with
  | nil => exact absurd hpackets h.bank
  | cons packet rest =>
    have hlength := documented.bytesInEndpoint e packet rest hpackets
    unfold fillWord
    by_cases hdry : packet = []
    · subst hdry
      have hcleared := documented.clearOUT e [] rest hpackets
      have hrest : rest ≠ [] := by
        rintro rfl
        have := h.flatten
        simp [hpackets] at this
      have hnext : Streams outPackets (ep.clearOUT e) (lo :: hi :: bytes) := by
        refine ⟨by rw [hcleared]; exact hrest, ?_, ?_, ?_⟩
        · rw [hcleared]
          have := h.flatten
          simpa [hpackets] using this
        · intro q hq
          rw [hcleared] at hq
          exact h.even q (by rw [hpackets]; exact List.mem_cons_of_mem _ hq)
        · intro q hq
          rw [hcleared] at hq
          exact h.nonempty q (by rw [hpackets]; exact List.mem_of_mem_tail hq)
      have hhead : (outPackets (ep.clearOUT e)).head? ≠ some [] := by
        rw [hcleared]
        intro hempty
        refine h.nonempty [] ?_ rfl
        rw [hpackets]
        exact List.mem_of_head? hempty
      obtain ⟨hword, hstream⟩ := hnext.read documented hhead
      have hreceived : ep.isOUTReceived (ep.clearOUT e) = true :=
        (documented.isOUTReceived _).mpr hnext.bank
      refine ⟨_, ?_, hstream⟩
      simp [hlength, waitOUT, hreceived, hword]
    · have hhead : (outPackets e).head? ≠ some [] := by
        simpa [hpackets] using hdry
      obtain ⟨hword, hstream⟩ := h.read documented hhead
      refine ⟨_, ?_, hstream⟩
      simp [hlength, hdry, hword]

end Stream

end MyMouse
