import MyMouse.Memory
import MyMouse.Outcome
import Mathlib.Algebra.Group.Nat.Defs
import Mathlib.Data.List.AList

namespace MyMouse

open Memory

structure ProgramHeader where
  pType : BitVec 32
  pOffset : BitVec 64
  pFilesz : BitVec 64
  pPaddr : BitVec 64
  deriving DecidableEq

def PT_LOAD : BitVec 32 := 1#32
def FLASH_SIZE_BYTES : Nat := 8192
abbrev FLASH_PAGE_SIZE_BYTES : Nat := 128

abbrev PageBytes (n : Nat) := Vector (BitVec 8) n

abbrev FlashMap (n : Nat) := AList (fun _ : Nat => PageBytes n)

abbrev FlashData := List (Nat × PageBytes FLASH_PAGE_SIZE_BYTES)

inductive PageContent (n : Nat)
  | fullPage (data : PageBytes n)
  | partPage (offset : Nat) (data : List (BitVec 8))
  deriving DecidableEq

/-- `&[u8]`; a slice has at most `isize::MAX` bytes. -/
abbrev ByteSlice := { bytes : List (BitVec 8) // bytes.length < 2 ^ 63 }

def asU16 (x : Nat) : Nat := x % 2 ^ 16

/-- Addition of a `w`-bit type, which panics on overflow as in a debug build. -/
def checkedAdd (w a b : Nat) : Outcome Nat :=
  if a + b < 2 ^ w then .ok (a + b) else .panic

/-- `&xs[start..stop]`. -/
def sliceOf (xs : List (BitVec 8)) (start stop : Nat) : Outcome (List (BitVec 8)) :=
  if start ≤ stop ∧ stop ≤ xs.length then .ok ((xs.take stop).drop start) else .panic

def PageContent.new (n offset : Nat) (data : List (BitVec 8)) : Except Nat (PageContent n) :=
  if offset + data.length > n then .error (offset + data.length)
  else if h : data.length = n then .ok (.fullPage ⟨data.toArray, by simpa using h⟩)
  else .ok (.partPage offset data)

/-- The chunks zipped with `iter::successors`: an address is asked for before the chunks
are found to be at their end, and the one after it is computed along with it. -/
def zipSuccessors (n : Nat) : Nat → List (List (BitVec 8)) → Outcome (List (Nat × PageContent n))
  | addr, [] => do
    let _ ← checkedAdd 16 addr 1
    pure []
  | addr, chunk :: rest => do
    let next ← checkedAdd 16 addr 1
    let content ← Outcome.expect (PageContent.new n 0 chunk)
    let pages ← zipSuccessors n next rest
    pure ((addr, content) :: pages)

/-- `split_at_checked`, or the whole and nothing. -/
def splitAtOrAll (mid : Nat) (xs : List (BitVec 8)) : List (BitVec 8) × List (BitVec 8) :=
  if mid ≤ xs.length then (xs.take mid, xs.drop mid) else (xs, [])

def iterPageContent (n physAddr : Nat) (segmentContent : List (BitVec 8)) :
    Outcome (List (Nat × PageContent n)) := do
  let firstPageAddr := physAddr / asU16 n
  let firstPageOffset := physAddr % asU16 n
  let numBytesFirstPage := asU16 n - firstPageOffset
  let (firstPageContent, remainingContent) := splitAtOrAll numBytesFirstPage segmentContent
  let first ← Outcome.expect (PageContent.new n firstPageOffset firstPageContent)
  let nextPageAddr ← checkedAdd 16 firstPageAddr 1
  let pages ← zipSuccessors n nextPageAddr (chunks n remainingContent)
  pure ((firstPageAddr, first) :: pages)

/-- `copy_from_slice` onto the bytes of the page from `offset` on. -/
def PageBytes.copyFrom {n : Nat} (page : PageBytes n) (offset : Nat) (data : List (BitVec 8)) :
    PageBytes n :=
  Vector.ofFn (fun i => if offset ≤ i.val then data.getD (i.val - offset) page[i] else page[i])

def fillPage (n : Nat) (flashMap : FlashMap n) (item : Nat × PageContent n) : Outcome (FlashMap n) :=
  match item.2 with
  | .fullPage data => .ok (flashMap.insert item.1 data)
  | .partPage offset data =>
    let page := (flashMap.lookup item.1).getD (Vector.replicate n 0#8)
    if offset + data.length ≤ n then .ok (flashMap.insert item.1 (page.copyFrom offset data))
    else .panic

def fillFlashMap (n : Nat) (flashMap : FlashMap n) (content : List (Nat × PageContent n)) :
    Outcome (FlashMap n) :=
  content.foldlM (fillPage n) flashMap

/-- One turn of the loop of `read_flash_data`; `usize` has 64 bits. -/
def readSegment (elfContent : ByteSlice) (flashMap : FlashMap FLASH_PAGE_SIZE_BYTES)
    (segment : ProgramHeader) : Outcome (FlashMap FLASH_PAGE_SIZE_BYTES) :=
  if segment.pType ≠ PT_LOAD ∨ segment.pFilesz = 0#64 then .ok flashMap
  else if ¬ segment.pPaddr.toNat < FLASH_SIZE_BYTES then
    .err "physical address exceeds flash capacity"
  else do
    let stop ← checkedAdd 64 segment.pOffset.toNat segment.pFilesz.toNat
    let segmentContent ← sliceOf elfContent.val segment.pOffset.toNat stop
    let content ← iterPageContent FLASH_PAGE_SIZE_BYTES (asU16 segment.pPaddr.toNat) segmentContent
    fillFlashMap FLASH_PAGE_SIZE_BYTES flashMap content

/-- `sort` of the collected map: no two entries have the same page index, so their contents
are not compared. -/
def sortedPages {n : Nat} (flashMap : FlashMap n) : List (Nat × PageBytes n) :=
  (flashMap.entries.map (fun e => (e.1, e.2))).mergeSort (fun a b => decide (a.1 ≤ b.1))

/-- `minimalParse` is what the elf crate makes of the content: `none` for an error, else the
program headers, if there is a table of them. -/
def readFlashData (minimalParse : ByteSlice → Option (Option (List ProgramHeader)))
    (elfContent : ByteSlice) : Outcome FlashData :=
  match minimalParse elfContent with
  | none => .err "invalid ELF file"
  | some none => .err "ELF file does not contain program headers (segments) table"
  | some (some segments) => do
    let flashMap ← segments.foldlM (readSegment elfContent) ∅
    pure (sortedPages flashMap)

end MyMouse
