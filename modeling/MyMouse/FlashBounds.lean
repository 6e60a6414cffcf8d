import MyMouse.FlashImage
import MyMouse.FlashTransfer

namespace MyMouse

open Memory ProgramHeader

/-- Addition of a `w`-bit type, in a build with overflow checks or without them. -/
def addIn (overflowChecks : Bool) (w a b : Nat) : Outcome Nat :=
  if a + b < 2 ^ w then .ok (a + b) else if overflowChecks then .panic else .ok ((a + b) % 2 ^ w)

section Builds

variable (overflowChecks : Bool)

def zipSuccessorsIn (n : Nat) : Nat → List (List (BitVec 8)) → Outcome (List (Nat × PageContent n))
  | addr, [] => do
    let _ ← addIn overflowChecks 16 addr 1
    pure []
  | addr, chunk :: rest => do
    let next ← addIn overflowChecks 16 addr 1
    let content ← Outcome.expect (PageContent.new n 0 chunk)
    let pages ← zipSuccessorsIn n next rest
    pure ((addr, content) :: pages)

def iterPageContentIn (n physAddr : Nat) (segmentContent : List (BitVec 8)) :
    Outcome (List (Nat × PageContent n)) := do
  let firstPageAddr := physAddr / asU16 n
  let firstPageOffset := physAddr % asU16 n
  let numBytesFirstPage := asU16 n - firstPageOffset
  let (firstPageContent, remainingContent) := splitAtOrAll numBytesFirstPage segmentContent
  let first ← Outcome.expect (PageContent.new n firstPageOffset firstPageContent)
  let nextPageAddr ← addIn overflowChecks 16 firstPageAddr 1
  let pages ← zipSuccessorsIn overflowChecks n nextPageAddr (chunks n remainingContent)
  pure ((firstPageAddr, first) :: pages)

def readSegmentIn (elfContent : ByteSlice) (flashMap : FlashMap FLASH_PAGE_SIZE_BYTES)
    (segment : ProgramHeader) : Outcome (FlashMap FLASH_PAGE_SIZE_BYTES) :=
  if segment.pType ≠ PT_LOAD ∨ segment.pFilesz = 0#64 then .ok flashMap
  else if ¬ segment.pPaddr.toNat < FLASH_SIZE_BYTES then
    .err "physical address exceeds flash capacity"
  else do
    let stop ← addIn overflowChecks 64 segment.pOffset.toNat segment.pFilesz.toNat
    let segmentContent ← sliceOf elfContent.val segment.pOffset.toNat stop
    let content ← iterPageContentIn overflowChecks FLASH_PAGE_SIZE_BYTES
      (asU16 segment.pPaddr.toNat) segmentContent
    fillFlashMap FLASH_PAGE_SIZE_BYTES flashMap content

/-- `readFlashData` in any build; the one of `readFlashData` has the checks. -/
def readFlashDataIn (minimalParse : ByteSlice → Option (Option (List ProgramHeader)))
    (elfContent : ByteSlice) : Outcome FlashData :=
  match minimalParse elfContent with
  | none => .err "invalid ELF file"
  | some none => .err "ELF file does not contain program headers (segments) table"
  | some (some segments) => do
    let flashMap ← segments.foldlM (readSegmentIn overflowChecks elfContent) ∅
    pure (sortedPages flashMap)

end Builds

theorem zipSuccessorsIn_true (n : Nat) (xs : List (List (BitVec 8))) (addr : Nat) :
    zipSuccessorsIn true n addr xs = zipSuccessors n addr xs := by
  induction xs generalizing addr with
  | nil => rfl
  | cons chunk rest ih =>
    simp only [zipSuccessorsIn, zipSuccessors, ih]
    rfl

theorem readSegmentIn_true (elfContent : ByteSlice) :
    readSegmentIn true elfContent = readSegment elfContent := by
  funext flashMap segment
  simp only [readSegmentIn, readSegment, iterPageContentIn, iterPageContent, zipSuccessorsIn_true]
  rfl

theorem readFlashDataIn_true (minimalParse : ByteSlice → Option (Option (List ProgramHeader)))
    (elfContent : ByteSlice) :
    readFlashDataIn true minimalParse elfContent = readFlashData minimalParse elfContent := by
  cases hparse : minimalParse elfContent with
  | none => simp only [readFlashDataIn, readFlashData, hparse]
  | some headers =>
    cases headers with
    | none => simp only [readFlashDataIn, readFlashData, hparse]
    | some segments => simp only [readFlashDataIn, readFlashData, hparse, readSegmentIn_true]

section Agreement

variable {overflowChecks : Bool} {n : Nat}

/-- Where nothing overflows, all builds compute the same. -/
theorem addIn_of_checked {w a b c : Nat} (h : checkedAdd w a b = .ok c) :
    addIn overflowChecks w a b = .ok c := by
  unfold checkedAdd at h
  split at h
  next hlt => exact (if_pos hlt).trans h
  next => cases h

theorem zipSuccessorsIn_of_checked {xs : List (List (BitVec 8))} {addr : Nat}
    {pages : List (Nat × PageContent n)} (h : zipSuccessors n addr xs = .ok pages) :
    zipSuccessorsIn overflowChecks n addr xs = .ok pages := by
  induction xs generalizing addr pages with
  | nil =>
    obtain ⟨next, hadd, hpages⟩ := Outcome.bind_eq_ok.mp h
    exact Outcome.bind_eq_ok.mpr ⟨next, addIn_of_checked hadd, hpages⟩
  | cons chunk rest ih =>
    obtain ⟨next, hadd, h⟩ := Outcome.bind_eq_ok.mp h
    obtain ⟨content, hnew, h⟩ := Outcome.bind_eq_ok.mp h
    obtain ⟨pages, hrest, hpages⟩ := Outcome.bind_eq_ok.mp h
    refine Outcome.bind_eq_ok.mpr ⟨next, addIn_of_checked hadd, ?_⟩
    refine Outcome.bind_eq_ok.mpr ⟨content, hnew, ?_⟩
    exact Outcome.bind_eq_ok.mpr ⟨pages, ih hrest, hpages⟩

theorem iterPageContentIn_of_checked {physAddr : Nat} {segment : List (BitVec 8)}
    {pages : List (Nat × PageContent n)} (h : iterPageContent n physAddr segment = .ok pages) :
    iterPageContentIn overflowChecks n physAddr segment = .ok pages := by
  obtain ⟨first, hnew, h⟩ := Outcome.bind_eq_ok.mp h
  obtain ⟨next, hadd, h⟩ := Outcome.bind_eq_ok.mp h
  obtain ⟨rest, hzip, hpages⟩ := Outcome.bind_eq_ok.mp h
  refine Outcome.bind_eq_ok.mpr ⟨first, hnew, ?_⟩
  refine Outcome.bind_eq_ok.mpr ⟨next, addIn_of_checked hadd, ?_⟩
  exact Outcome.bind_eq_ok.mpr ⟨rest, zipSuccessorsIn_of_checked hzip, hpages⟩

theorem readSegmentIn_of_checked {elfContent : ByteSlice}
    {flashMap after : FlashMap FLASH_PAGE_SIZE_BYTES} {segment : ProgramHeader}
    (h : readSegment elfContent flashMap segment = .ok after) :
    readSegmentIn overflowChecks elfContent flashMap segment = .ok after := by
  unfold readSegment at h
  unfold readSegmentIn
  split at h
  next hskip => rw [if_pos hskip, h]
  next hskip =>
    rw [if_neg hskip]
    split at h
    next => cases h
    next hstart =>
      rw [if_neg hstart]
      obtain ⟨stop, hadd, h⟩ := Outcome.bind_eq_ok.mp h
      obtain ⟨content, hslice, h⟩ := Outcome.bind_eq_ok.mp h
      obtain ⟨items, hiter, hfill⟩ := Outcome.bind_eq_ok.mp h
      refine Outcome.bind_eq_ok.mpr ⟨stop, addIn_of_checked hadd, ?_⟩
      refine Outcome.bind_eq_ok.mpr ⟨content, hslice, ?_⟩
      exact Outcome.bind_eq_ok.mpr ⟨items, iterPageContentIn_of_checked hiter, hfill⟩

theorem readFlashDataIn_of_checked {minimalParse : ByteSlice → Option (Option (List ProgramHeader))}
    {elfContent : ByteSlice} {flashData : FlashData}
    (h : readFlashData minimalParse elfContent = .ok flashData) :
    readFlashDataIn overflowChecks minimalParse elfContent = .ok flashData := by
  have hfold : ∀ (segments : List ProgramHeader) (flashMap after : FlashMap FLASH_PAGE_SIZE_BYTES),
      segments.foldlM (readSegment elfContent) flashMap = .ok after →
        segments.foldlM (readSegmentIn overflowChecks elfContent) flashMap = .ok after := by
    intro segments
    induction segments with
    | nil => exact fun _ _ h => h
    | cons segment rest ih =>
      intro flashMap after h
      rw [List.foldlM_cons] at h ⊢
      obtain ⟨next, hread, hrest⟩ := Outcome.bind_eq_ok.mp h
      exact Outcome.bind_eq_ok.mpr ⟨next, readSegmentIn_of_checked hread, ih next after hrest⟩
  unfold readFlashData at h
  unfold readFlashDataIn
  cases hparse : minimalParse elfContent with
  | none => simp [hparse] at h
  | some table =>
    cases table with
    | none => simp [hparse] at h
    | some segments =>
      rw [hparse] at h
      obtain ⟨flashMap, hread, hsorted⟩ := Outcome.bind_eq_ok.mp h
      exact Outcome.bind_eq_ok.mpr ⟨flashMap, hfold segments ∅ flashMap hread, hsorted⟩

end Agreement

section Listed

variable {overflowChecks : Bool} {n : Nat}

theorem mem_zipSuccessorsIn {xs : List (List (BitVec 8))} {addr k : Nat}
    {pages : List (Nat × PageContent n)}
    (h : zipSuccessorsIn overflowChecks n addr xs = .ok pages) (hk : k < xs.length)
    (hroom : addr + k < 2 ^ 16) : addr + k ∈ pages.map Prod.fst := by
  induction xs generalizing addr k pages with
  | nil => simp at hk
  | cons chunk rest ih =>
    obtain ⟨next, hadd, h⟩ := Outcome.bind_eq_ok.mp h
    obtain ⟨content, -, h⟩ := Outcome.bind_eq_ok.mp h
    obtain ⟨others, hrest, hpages⟩ := Outcome.bind_eq_ok.mp h
    cases hpages
    rw [List.map_cons, List.mem_cons]
    cases k with
    | zero => exact Or.inl rfl
    | succ k =>
      have hnext : addIn overflowChecks 16 addr 1 = .ok (addr + 1) := if_pos (by omega)
      rw [hnext] at hadd
      cases hadd
      simp only [List.length_cons] at hk
      have hmem := ih hrest (by omega) (by omega : addr + 1 + k < 2 ^ 16)
      exact Or.inr (by rwa [Nat.add_assoc, Nat.add_comm 1 k] at hmem)

/-- Every page the segment reaches is among its items, up to where the counter wraps. -/
theorem mem_iterPageContentIn (hn : 0 < n) (hn16 : n < 2 ^ 16) {physAddr p : Nat}
    {segment : List (BitVec 8)} {items : List (Nat × PageContent n)}
    (h : iterPageContentIn overflowChecks n physAddr segment = .ok items)
    (hfirst : physAddr / n < p) (hreach : p * n < physAddr + segment.length) (hp : p < 2 ^ 16) :
    p ∈ items.map Prod.fst := by
  have h16 : asU16 n = n := Nat.mod_eq_of_lt hn16
  have hsum := splitAtOrAll_append (n - physAddr % n) segment
  obtain ⟨hle, -⟩ := splitAtOrAll_length (n - physAddr % n) segment
  simp only [iterPageContentIn, h16] at h
  generalize splitAtOrAll (n - physAddr % n) segment = parts at h hsum hle
  obtain ⟨firstPart, rest⟩ := parts
  simp only at hsum hle
  obtain ⟨first, -, h⟩ := Outcome.bind_eq_ok.mp h
  obtain ⟨next, hadd, h⟩ := Outcome.bind_eq_ok.mp h
  obtain ⟨others, hzip, hitems⟩ := Outcome.bind_eq_ok.mp h
  cases hitems
  have hnext : addIn overflowChecks 16 (physAddr / n) 1 = .ok (physAddr / n + 1) :=
    if_pos (by omega)
  rw [hnext] at hadd
  cases hadd
  obtain ⟨k, rfl⟩ : ∃ k, p = physAddr / n + 1 + k := ⟨p - (physAddr / n + 1), by omega⟩
  have hcount : k < (chunks n rest).length := by
    have hchunks := length_le_chunks hn rest
    have hlength : firstPart.length + rest.length = segment.length := by
      rw [← hsum, List.length_append]
    have hdiv := Nat.div_add_mod' physAddr n
    have hmod := Nat.mod_lt physAddr hn
    have hmul : (physAddr / n + 1 + k) * n = physAddr / n * n + n + k * n := by
      rw [Nat.add_mul, Nat.add_mul, Nat.one_mul]
    have hlt : k * n < (chunks n rest).length * n := by omega
    exact Nat.lt_of_mul_lt_mul_right hlt
  exact List.mem_cons_of_mem _ (mem_zipSuccessorsIn hzip hcount hp)

theorem fillPage_keys {flashMap after : FlashMap n} {item : Nat × PageContent n}
    (h : fillPage n flashMap item = .ok after) :
    item.1 ∈ after ∧ ∀ q ∈ flashMap, q ∈ after := by
  unfold fillPage at h
  split at h
  next data _ =>
    cases h
    exact ⟨(AList.mem_insert _).mpr (Or.inl rfl), fun q hq => (AList.mem_insert _).mpr (Or.inr hq)⟩
  next offset data _ =>
    simp only at h
    split at h
    next =>
      cases h
      exact ⟨(AList.mem_insert _).mpr (Or.inl rfl), fun q hq => (AList.mem_insert _).mpr (Or.inr hq)⟩
    next => cases h

theorem fillFlashMap_keys {flashMap after : FlashMap n} {items : List (Nat × PageContent n)}
    (h : fillFlashMap n flashMap items = .ok after) :
    (∀ q ∈ flashMap, q ∈ after) ∧ ∀ q ∈ items.map Prod.fst, q ∈ after := by
  obtain ⟨hkept, hall⟩ := Outcome.foldlM_eq_ok
    (R := fun (a b : FlashMap n) => ∀ q ∈ a, q ∈ b) (fun _ _ hq => hq)
    (fun _ _ _ hab hbc q hq => hbc q (hab q hq)) (fun _ _ _ hfill => (fillPage_keys hfill).2) h
  refine ⟨hkept, ?_⟩
  intro q hq
  obtain ⟨item, hitem, rfl⟩ := List.mem_map.mp hq
  obtain ⟨before, next, hfill, hlater⟩ := hall item hitem
  exact hlater _ (fillPage_keys hfill).1

end Listed

/-- Every listed page lies in the flash, neither the page counter nor a page's address overflows
its `u16`, as the build with overflow checks shows, and no two pages share an address. -/
structure FitsChip (minimalParse : ByteSlice → Option (Option (List ProgramHeader)))
    (elfContent : ByteSlice) (flashData : FlashData) : Prop where
  pages : ∀ p ∈ flashData.map Prod.fst,
    FLASH_PAGE_SIZE_BYTES * p + FLASH_PAGE_SIZE_BYTES ≤ FLASH_SIZE_BYTES
  successors : readFlashData minimalParse elfContent = .ok flashData
  products : ∀ p ∈ flashData.map Prod.fst, p * FLASH_PAGE_SIZE_BYTES < 2 ^ 16
  addresses : (flashData.map (fun page => asU16 (page.1 * FLASH_PAGE_SIZE_BYTES))).Nodup

section Segment

variable {overflowChecks : Bool} {elfContent : ByteSlice}
  {flashMap after : FlashMap FLASH_PAGE_SIZE_BYTES} {segment : ProgramHeader}

theorem sliceOf_eq_ok {xs ys : List (BitVec 8)} {start stop : Nat}
    (h : sliceOf xs start stop = .ok ys) :
    start ≤ stop ∧ stop ≤ xs.length ∧ ys.length = stop - start := by
  unfold sliceOf at h
  split at h
  next hbounds =>
    cases h
    refine ⟨hbounds.1, hbounds.2, ?_⟩
    rw [List.length_drop, List.length_take, Nat.min_eq_left hbounds.2]
  next => cases h

/-- A sum that wraps is less than what was added to. -/
theorem addIn_eq_ok {w a b c : Nat} (h : addIn overflowChecks w a b = .ok c) (hb : b < 2 ^ w)
    (hle : a ≤ c) : c = a + b := by
  unfold addIn at h
  split at h
  next =>
    cases h
    rfl
  next hover =>
    split at h
    next => cases h
    next =>
      cases h
      exfalso
      by_cases ha : a < 2 ^ w
      · rw [Nat.mod_eq_sub_mod (by omega), Nat.mod_eq_of_lt (by omega)] at hle
        omega
      · have := Nat.mod_lt (a + b) (Nat.two_pow_pos w)
        omega

theorem readSegmentIn_keys
    (h : readSegmentIn overflowChecks elfContent flashMap segment = .ok after) :
    ∀ q ∈ flashMap, q ∈ after := by
  unfold readSegmentIn at h
  split at h
  next =>
    cases h
    exact fun _ hq => hq
  next =>
    split at h
    next => cases h
    next =>
      obtain ⟨stop, -, h⟩ := Outcome.bind_eq_ok.mp h
      obtain ⟨content, -, h⟩ := Outcome.bind_eq_ok.mp h
      obtain ⟨items, -, hfill⟩ := Outcome.bind_eq_ok.mp h
      exact (fillFlashMap_keys hfill).1

/-- An accepted segment lies in the file and starts in the flash; one that ends outside lists
the first page behind the flash. -/
theorem readSegmentIn_loaded
    (h : readSegmentIn overflowChecks elfContent flashMap segment = .ok after)
    (hloaded : segment.Loaded) :
    segment.pOffset.toNat + segment.pFilesz.toNat ≤ elfContent.val.length ∧
      segment.pPaddr.toNat < FLASH_SIZE_BYTES ∧
      (FLASH_SIZE_BYTES < segment.pPaddr.toNat + segment.pFilesz.toNat → 64 ∈ after) := by
  unfold readSegmentIn at h
  rw [if_neg (by simp [hloaded.1, hloaded.2])] at h
  split at h
  next => cases h
  next hstart =>
    have hstarts := not_not.mp hstart
    obtain ⟨stop, hadd, h⟩ := Outcome.bind_eq_ok.mp h
    obtain ⟨content, hslice, h⟩ := Outcome.bind_eq_ok.mp h
    obtain ⟨items, hiter, hfill⟩ := Outcome.bind_eq_ok.mp h
    obtain ⟨hle, hin, hlength⟩ := sliceOf_eq_ok hslice
    have hstop := addIn_eq_ok hadd segment.pFilesz.isLt hle
    refine ⟨by omega, hstarts, ?_⟩
    intro hover
    have haddr : asU16 segment.pPaddr.toNat = segment.pPaddr.toNat :=
      Nat.mod_eq_of_lt (by unfold FLASH_SIZE_BYTES at hstarts; omega)
    rw [haddr] at hiter
    have hfirst : segment.pPaddr.toNat / 128 < 64 := by
      unfold FLASH_SIZE_BYTES at hstarts
      omega
    have hreach : 64 * 128 < segment.pPaddr.toNat + content.length := by
      unfold FLASH_SIZE_BYTES at hover
      omega
    have hmem := mem_iterPageContentIn (by decide) (by decide) hiter hfirst hreach (by decide)
    exact (fillFlashMap_keys hfill).2 64 hmem

end Segment

section Image

variable {overflowChecks : Bool} {elfContent : ByteSlice} {flashData : FlashData}
  {minimalParse : ByteSlice → Option (Option (List ProgramHeader))}
  {segments : List ProgramHeader}

theorem readFlashDataIn_segments (hparse : minimalParse elfContent = some (some segments))
    (h : readFlashDataIn overflowChecks minimalParse elfContent = .ok flashData) :
    ∀ segment ∈ segments, segment.Loaded →
      segment.pOffset.toNat + segment.pFilesz.toNat ≤ elfContent.val.length ∧
      segment.pPaddr.toNat < FLASH_SIZE_BYTES ∧
      (FLASH_SIZE_BYTES < segment.pPaddr.toNat + segment.pFilesz.toNat →
        64 ∈ flashData.map Prod.fst) := by
  unfold readFlashDataIn at h
  rw [hparse] at h
  obtain ⟨flashMap, hfold, hsorted⟩ := Outcome.bind_eq_ok.mp h
  cases hsorted
  obtain ⟨-, hall⟩ := Outcome.foldlM_eq_ok
    (R := fun (a b : FlashMap FLASH_PAGE_SIZE_BYTES) => ∀ q ∈ a, q ∈ b) (fun _ _ hq => hq)
    (fun _ _ _ hab hbc q hq => hbc q (hab q hq)) (fun _ _ _ hread => readSegmentIn_keys hread)
    hfold
  intro segment hmem hloaded
  obtain ⟨before, next, hread, hlater⟩ := hall segment hmem
  obtain ⟨hfile, hstart, hover⟩ := readSegmentIn_loaded hread hloaded
  exact ⟨hfile, hstart, fun hlt => mem_listed.mpr (hlater 64 (hover hlt))⟩

/-- Segments that end in the flash list pages of the flash. -/
theorem pages_lt {flashMap : FlashMap FLASH_PAGE_SIZE_BYTES}
    (hrange : ∀ segment ∈ segments, segment.Loaded → segment.InRange elfContent.val)
    (hmap : Represents flashMap (lastByte elfContent.val segments))
    (hends : ∀ segment ∈ segments, segment.Loaded →
      segment.pPaddr.toNat + segment.pFilesz.toNat ≤ FLASH_SIZE_BYTES) :
    ∀ p ∈ flashMap, p < 64 := by
  intro p hp
  obtain ⟨i, hi, hbyte⟩ := (hmap.listed p).mp hp
  obtain ⟨segment, hmem, hloaded, -, hlt⟩ := (lastByte_isSome hrange _).mp hbyte
  have hend := hends segment hmem hloaded
  unfold FLASH_SIZE_BYTES at hend
  unfold FLASH_PAGE_SIZE_BYTES at hlt
  omega

theorem fitsChip_of_pages {flashMap : FlashMap FLASH_PAGE_SIZE_BYTES}
    (hread : readFlashData minimalParse elfContent = .ok (sortedPages flashMap))
    (hpages : ∀ p ∈ flashMap, p < 64) :
    FitsChip minimalParse elfContent (sortedPages flashMap) := by
  refine ⟨?_, hread, ?_, ?_⟩
  · intro p hp
    have hlt := hpages p (mem_listed.mp hp)
    change 128 * p + 128 ≤ 8192
    omega
  · intro p hp
    have hlt := hpages p (mem_listed.mp hp)
    change p * 128 < 2 ^ 16
    omega
  · have hnodup : ((sortedPages flashMap).map Prod.fst).Nodup :=
      (sortedPages_increasing flashMap).imp (fun h => Nat.ne_of_lt h)
    have haddresses : (sortedPages flashMap).map (fun page =>
        asU16 (page.1 * FLASH_PAGE_SIZE_BYTES)) = ((sortedPages flashMap).map Prod.fst).map
          (fun p => asU16 (p * FLASH_PAGE_SIZE_BYTES)) := by
      rw [List.map_map]
      rfl
    rw [haddresses]
    refine hnodup.map_on ?_
    intro p hp q hq heq
    have hlt := hpages p (mem_listed.mp hp)
    have hlt' := hpages q (mem_listed.mp hq)
    change p * 128 % 2 ^ 16 = q * 128 % 2 ^ 16 at heq
    omega

/-- An accepted image fits the chip exactly if each of its segments ends in the flash. -/
theorem fitsChip_iff (hparse : minimalParse elfContent = some (some segments))
    (h : readFlashDataIn overflowChecks minimalParse elfContent = .ok flashData) :
    FitsChip minimalParse elfContent flashData ↔
      ∀ segment ∈ segments, segment.Loaded →
        segment.pPaddr.toNat + segment.pFilesz.toNat ≤ FLASH_SIZE_BYTES := by
  have haccepted := readFlashDataIn_segments hparse h
  constructor
  · intro fits segment hmem hloaded
    by_contra hover
    have hlisted := (haccepted segment hmem hloaded).2.2 (by omega)
    have hpage : 128 * 64 + 128 ≤ 8192 := fits.pages 64 hlisted
    omega
  · intro hends
    have hrange : ∀ segment ∈ segments, segment.Loaded → segment.InRange elfContent.val := by
      intro segment hmem hloaded
      obtain ⟨hfile, hstart, -⟩ := haccepted segment hmem hloaded
      exact ⟨hfile, hstart, hends segment hmem hloaded⟩
    obtain ⟨flashMap, hfold, hmap⟩ := readSegments_ok elfContent hrange
    have hread : readFlashData minimalParse elfContent = .ok (sortedPages flashMap) := by
      simp only [readFlashData, hparse, hfold, Outcome.ok_bind, Outcome.pure_eq]
    have hsame : readFlashDataIn overflowChecks minimalParse elfContent = _ :=
      readFlashDataIn_of_checked hread
    rw [h] at hsame
    cases hsame
    exact fitsChip_of_pages hread (pages_lt hrange hmap hends)

end Image

/-- A file whose segment of two bytes ends where the flash does. -/
def lastBytesHeader : ProgramHeader := ⟨PT_LOAD, 84#64, 2#64, 8190#64⟩

def lastBytesElf : ByteSlice :=
  ⟨[0x7f, 0x45, 0x4c, 0x46, 0x01, 0x01, 0x01, 0x00, 0x00, 0x00, 0x00, 0x00, 0x00, 0x00, 0x00, 0x00,
    0x02, 0x00, 0x53, 0x00, 0x01, 0x00, 0x00, 0x00, 0x00, 0x00, 0x00, 0x00, 0x34, 0x00, 0x00, 0x00,
    0x00, 0x00, 0x00, 0x00, 0x00, 0x00, 0x00, 0x00, 0x34, 0x00, 0x20, 0x00, 0x01, 0x00, 0x28, 0x00,
    0x00, 0x00, 0x00, 0x00,
    0x01, 0x00, 0x00, 0x00, 0x54, 0x00, 0x00, 0x00, 0xfe, 0x1f, 0x00, 0x00, 0xfe, 0x1f, 0x00, 0x00,
    0x02, 0x00, 0x00, 0x00, 0x02, 0x00, 0x00, 0x00, 0x05, 0x00, 0x00, 0x00, 0x01, 0x00, 0x00, 0x00,
    0xaa, 0xbb], by decide⟩

theorem fitsChip_lastBytes :
    ∃ flashData, readFlashDataIn false (fun _ => some (some [lastBytesHeader])) lastBytesElf =
        .ok flashData ∧
      FitsChip (fun _ => some (some [lastBytesHeader])) lastBytesElf flashData := by
  obtain ⟨flashMap, hfold⟩ : ∃ flashMap,
      [lastBytesHeader].foldlM (readSegmentIn false lastBytesElf) ∅ = .ok flashMap := ⟨_, rfl⟩
  have hread : readFlashDataIn false (fun _ => some (some [lastBytesHeader])) lastBytesElf =
      .ok (sortedPages flashMap) := Outcome.bind_eq_ok.mpr ⟨flashMap, hfold, rfl⟩
  refine ⟨sortedPages flashMap, hread, (fitsChip_iff rfl hread).mpr ?_⟩
  decide

/-- The same file with its segment one byte further on. -/
def overrunHeader : ProgramHeader := ⟨PT_LOAD, 84#64, 2#64, 8191#64⟩

def overrunElf : ByteSlice :=
  ⟨(lastBytesElf.val.set 60 0xff).set 64 0xff, by decide⟩

theorem page_outside_overrun :
    ∃ flashData, readFlashData (fun _ => some (some [overrunHeader])) overrunElf =
        .ok flashData ∧ 64 ∈ flashData.map Prod.fst ∧
      ¬ FitsChip (fun _ => some (some [overrunHeader])) overrunElf flashData := by
  obtain ⟨flashMap, hfold, hmem⟩ : ∃ flashMap,
      [overrunHeader].foldlM (readSegment overrunElf) ∅ = .ok flashMap ∧ 64 ∈ flashMap.keys :=
    ⟨_, rfl, by decide⟩
  have hlisted : 64 ∈ (sortedPages flashMap).map Prod.fst :=
    mem_listed.mpr (AList.mem_keys.mpr hmem)
  refine ⟨sortedPages flashMap, Outcome.bind_eq_ok.mpr ⟨flashMap, hfold, rfl⟩, hlisted, ?_⟩
  intro fits
  exact absurd (fits.pages 64 hlisted) (by decide)

end MyMouse
