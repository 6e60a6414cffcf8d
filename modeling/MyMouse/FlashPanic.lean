import MyMouse.FlashBounds

namespace MyMouse

open Memory ProgramHeader

section Items

variable {overflowChecks : Bool} {n : Nat}

theorem addIn_ne_panic {w a b : Nat} :
    addIn overflowChecks w a b ≠ .panic ↔ (overflowChecks = true → a + b < 2 ^ w) := by
  unfold addIn
  by_cases hlt : a + b < 2 ^ w
  · simp [hlt]
  · cases overflowChecks with
    | true => simp [hlt]
    | false => simp [hlt]

/-- The content fits in a page from its offset on. -/
def PageContent.Inside (content : PageContent n) : Prop :=
  content.offset + content.bytes.length ≤ n

theorem expect_new {offset : Nat} {data : List (BitVec 8)} (h : offset + data.length ≤ n) :
    ∃ content, Outcome.expect (PageContent.new n offset data) = .ok content ∧ content.Inside := by
  obtain ⟨content, hnew, hoffset, hbytes⟩ := PageContent.new_ok h
  refine ⟨content, by rw [hnew]; rfl, ?_⟩
  unfold PageContent.Inside
  rw [hoffset, hbytes]
  exact h

/-- Only the page counter can stop the chunks, one page after the last of them. -/
theorem zipSuccessorsIn_ne_panic {xs : List (List (BitVec 8))} (hsize : ∀ chunk ∈ xs, chunk.length ≤ n)
    (addr : Nat) :
    zipSuccessorsIn overflowChecks n addr xs ≠ .panic ↔
      (overflowChecks = true → addr + xs.length + 1 < 2 ^ 16) := by
  induction xs generalizing addr with
  | nil =>
    unfold zipSuccessorsIn
    rw [Outcome.bind_ne_panic, addIn_ne_panic]
    exact and_iff_left (fun _ _ => Outcome.ok_ne_panic _)
  | cons chunk rest ih =>
    obtain ⟨content, hnew, -⟩ :=
      expect_new (n := n) (show 0 + chunk.length ≤ n by
        have := hsize chunk (by simp)
        omega)
    have hrest := ih (fun c hc => hsize c (List.mem_cons_of_mem _ hc))
    unfold zipSuccessorsIn
    rw [Outcome.bind_ne_panic, addIn_ne_panic, List.length_cons]
    simp only [hnew, Outcome.ok_bind]
    constructor
    · rintro ⟨hadd, hnext⟩ hchecks
      have hnext' := hnext (addr + 1) (if_pos (hadd hchecks))
      have := (hrest (addr + 1)).mp (Outcome.bind_ne_panic.mp hnext').1 hchecks
      omega
    · intro hroom
      refine ⟨fun hchecks => by have := hroom hchecks; omega, ?_⟩
      intro next hadd
      refine Outcome.bind_ne_panic.mpr ⟨(hrest next).mpr ?_, fun _ _ => Outcome.ok_ne_panic _⟩
      intro hchecks
      have hlt := hroom hchecks
      have heq : addIn overflowChecks 16 addr 1 = .ok (addr + 1) := if_pos (by omega)
      rw [heq] at hadd
      cases hadd
      omega

theorem zipSuccessorsIn_inside {xs : List (List (BitVec 8))} {addr : Nat}
    {items : List (Nat × PageContent n)} (hsize : ∀ chunk ∈ xs, chunk.length ≤ n)
    (h : zipSuccessorsIn overflowChecks n addr xs = .ok items) : ∀ item ∈ items, item.2.Inside := by
  induction xs generalizing addr items with
  | nil =>
    obtain ⟨_, _, hitems⟩ := Outcome.bind_eq_ok.mp h
    cases hitems
    simp
  | cons chunk rest ih =>
    obtain ⟨next, -, h⟩ := Outcome.bind_eq_ok.mp h
    obtain ⟨content, hnew, h⟩ := Outcome.bind_eq_ok.mp h
    obtain ⟨others, hrest, hitems⟩ := Outcome.bind_eq_ok.mp h
    cases hitems
    obtain ⟨content', hnew', hinside⟩ :=
      expect_new (n := n) (show 0 + chunk.length ≤ n by
        have := hsize chunk (by simp)
        omega)
    rw [hnew] at hnew'
    cases hnew'
    intro item hitem
    rcases List.mem_cons.mp hitem with rfl | hmem
    · exact hinside
    · exact ih (fun c hc => hsize c (List.mem_cons_of_mem _ hc)) hrest item hmem

/-- Items that fit in their pages are filled in without a panic. -/
theorem fillFlashMap_inside (flashMap : FlashMap n) {items : List (Nat × PageContent n)}
    (hinside : ∀ item ∈ items, item.2.Inside) :
    ∃ after, fillFlashMap n flashMap items = .ok after := by
  obtain ⟨after, hfill, -⟩ := Outcome.foldlM_ok (f := fillPage n) (b := flashMap)
    (fun _ _ => True) items trivial (by
      intro _ item before hitem _
      have hfits := hinside item hitem
      obtain ⟨p, content⟩ := item
      cases content with
      | fullPage data => exact ⟨_, rfl, trivial⟩
      | partPage offset data => exact ⟨_, if_pos hfits, trivial⟩)
  exact ⟨after, hfill⟩

end Items

section Segment

variable {overflowChecks : Bool}

theorem mem_chunks_length {n : Nat} (hn : 0 < n) (xs : List (BitVec 8)) :
    ∀ chunk ∈ chunks n xs, chunk.length ≤ n :=
  fun _ hmem => (mem_chunks hn hmem).2

/-- The counter of a segment goes two pages past the page of its last byte. -/
theorem iterPageContentIn_ne_panic {physAddr : Nat} {segment : List (BitVec 8)}
    (hne : segment ≠ []) :
    iterPageContentIn overflowChecks 128 physAddr segment ≠ .panic ↔
      (overflowChecks = true → physAddr + segment.length ≤ (2 ^ 16 - 2) * 128) := by
  have h16 : asU16 128 = 128 := rfl
  have hpos := List.length_pos_of_ne_nil hne
  have hsum := splitAtOrAll_append (128 - physAddr % 128) segment
  obtain ⟨hle, hcut⟩ := splitAtOrAll_length (128 - physAddr % 128) segment
  unfold iterPageContentIn
  simp only [h16]
  generalize splitAtOrAll (128 - physAddr % 128) segment = parts at hsum hle hcut
  obtain ⟨firstPart, rest⟩ := parts
  simp only at hsum hle hcut
  obtain ⟨content, hnew, -⟩ :=
    expect_new (n := 128) (show physAddr % 128 + firstPart.length ≤ 128 by omega)
  have hzip : ∀ next, zipSuccessorsIn overflowChecks 128 next (chunks 128 rest) ≠ .panic ↔
      (overflowChecks = true → next + (chunks 128 rest).length + 1 < 2 ^ 16) :=
    zipSuccessorsIn_ne_panic (mem_chunks_length (by decide) rest)
  have hlength : firstPart.length + rest.length = segment.length := by
    rw [← hsum, List.length_append]
  have hupper := length_chunks_le (by decide : 0 < 128) rest
  have hlower := length_le_chunks (by decide : 0 < 128) rest
  have hcount : physAddr / 128 + 1 + (chunks 128 rest).length + 1 < 2 ^ 16 ↔
      physAddr + segment.length ≤ (2 ^ 16 - 2) * 128 := by
    rcases hcut with hfull | hnil
    · omega
    · subst hnil
      simp only [chunks_nil, List.length_nil] at hlength hupper hlower ⊢
      omega
  simp only [hnew, Outcome.ok_bind]
  rw [Outcome.bind_ne_panic, addIn_ne_panic, ← hcount]
  constructor
  · rintro ⟨hadd, hnext⟩ hchecks
    have hnext' := hnext (physAddr / 128 + 1) (if_pos (hadd hchecks))
    exact (hzip _).mp (Outcome.bind_ne_panic.mp hnext').1 hchecks
  · intro hroom
    refine ⟨fun hchecks => by have := hroom hchecks; omega, ?_⟩
    intro next hadd
    refine Outcome.bind_ne_panic.mpr ⟨(hzip next).mpr ?_, fun _ _ => Outcome.ok_ne_panic _⟩
    intro hchecks
    have hlt := hroom hchecks
    have heq : addIn overflowChecks 16 (physAddr / 128) 1 = .ok (physAddr / 128 + 1) :=
      if_pos (by omega)
    rw [heq] at hadd
    cases hadd
    omega

theorem iterPageContentIn_inside {physAddr : Nat} {segment : List (BitVec 8)}
    {items : List (Nat × PageContent 128)}
    (h : iterPageContentIn overflowChecks 128 physAddr segment = .ok items) :
    ∀ item ∈ items, item.2.Inside := by
  have h16 : asU16 128 = 128 := rfl
  obtain ⟨hle, -⟩ := splitAtOrAll_length (128 - physAddr % 128) segment
  unfold iterPageContentIn at h
  simp only [h16] at h
  generalize splitAtOrAll (128 - physAddr % 128) segment = parts at h hle
  obtain ⟨firstPart, rest⟩ := parts
  simp only at hle
  obtain ⟨content, hnew, hinside⟩ :=
    expect_new (n := 128) (show physAddr % 128 + firstPart.length ≤ 128 by omega)
  obtain ⟨first, hfirst, h⟩ := Outcome.bind_eq_ok.mp h
  obtain ⟨next, -, h⟩ := Outcome.bind_eq_ok.mp h
  obtain ⟨others, hzip, hitems⟩ := Outcome.bind_eq_ok.mp h
  cases hitems
  rw [hnew] at hfirst
  cases hfirst
  intro item hitem
  rcases List.mem_cons.mp hitem with rfl | hmem
  · exact hinside
  · exact zipSuccessorsIn_inside (mem_chunks_length (by decide) rest) hzip item hmem

theorem addIn_neverErr (w a b : Nat) : (addIn overflowChecks w a b).NeverErr := by
  unfold addIn
  split
  next => exact Outcome.neverErr_ok _
  next =>
    split
    next => exact Outcome.neverErr_panic
    next => exact Outcome.neverErr_ok _

theorem zipSuccessorsIn_neverErr {n : Nat} (xs : List (List (BitVec 8))) (addr : Nat) :
    (zipSuccessorsIn overflowChecks n addr xs).NeverErr := by
  induction xs generalizing addr with
  | nil => exact (addIn_neverErr 16 addr 1).bind (fun _ => Outcome.neverErr_ok _)
  | cons chunk rest ih =>
    refine (addIn_neverErr 16 addr 1).bind (fun next => ?_)
    refine (Outcome.neverErr_expect _).bind (fun content => ?_)
    exact (ih next).bind (fun _ => Outcome.neverErr_ok _)

theorem iterPageContentIn_neverErr (physAddr : Nat) (segment : List (BitVec 8)) :
    (iterPageContentIn overflowChecks 128 physAddr segment).NeverErr := by
  refine (Outcome.neverErr_expect _).bind (fun first => ?_)
  refine (addIn_neverErr 16 _ 1).bind (fun next => ?_)
  exact (zipSuccessorsIn_neverErr _ next).bind (fun _ => Outcome.neverErr_ok _)

end Segment

/-- Not turned away by the check of the physical address. -/
def ProgramHeader.PassesCheck (segment : ProgramHeader) : Prop :=
  segment.Loaded → segment.pPaddr.toNat < FLASH_SIZE_BYTES

instance (segment : ProgramHeader) : Decidable segment.PassesCheck :=
  inferInstanceAs (Decidable (_ → _))

/-- The data of the segment is in the file, and where overflow is checked, the page counter
does not reach its limit. -/
structure ProgramHeader.Readable (overflowChecks : Bool) (elfContent : List (BitVec 8))
    (segment : ProgramHeader) : Prop where
  in_file : segment.pOffset.toNat + segment.pFilesz.toNat ≤ elfContent.length
  counted : overflowChecks = true →
    segment.pPaddr.toNat + segment.pFilesz.toNat ≤ (2 ^ 16 - 2) * FLASH_PAGE_SIZE_BYTES

section Headers

variable {overflowChecks : Bool} {elfContent : ByteSlice}
  {flashMap : FlashMap FLASH_PAGE_SIZE_BYTES} {segment : ProgramHeader}

theorem segmentSlice_inside
    (hin : segment.pOffset.toNat + segment.pFilesz.toNat ≤ elfContent.val.length) :
    (addIn overflowChecks 64 segment.pOffset.toNat segment.pFilesz.toNat >>= fun stop =>
      sliceOf elfContent.val segment.pOffset.toNat stop) = .ok (segment.content elfContent.val) := by
  have hfile := elfContent.property
  have hadd : addIn overflowChecks 64 segment.pOffset.toNat segment.pFilesz.toNat =
      .ok (segment.pOffset.toNat + segment.pFilesz.toNat) := if_pos (by omega)
  rw [hadd]
  exact if_pos ⟨by omega, hin⟩

/-- Whether or not the sum wraps, a segment that leaves the file is not sliced from it. -/
theorem segmentSlice_outside
    (hout : ¬ segment.pOffset.toNat + segment.pFilesz.toNat ≤ elfContent.val.length) :
    (addIn overflowChecks 64 segment.pOffset.toNat segment.pFilesz.toNat >>= fun stop =>
      sliceOf elfContent.val segment.pOffset.toNat stop) = .panic := by
  cases hadd : addIn overflowChecks 64 segment.pOffset.toNat segment.pFilesz.toNat with
  | ok stop =>
    refine if_neg ?_
    rintro ⟨hle, hstop⟩
    have hsum := addIn_eq_ok hadd segment.pFilesz.isLt hle
    omega
  | err message =>
    unfold addIn at hadd
    split at hadd
    next => cases hadd
    next =>
      split at hadd
      next => cases hadd
      next => cases hadd
  | panic => rfl

theorem readSegmentIn_skips (hskip : ¬ segment.Loaded) :
    readSegmentIn overflowChecks elfContent flashMap segment = .ok flashMap := by
  refine if_pos ?_
  by_contra hnot
  rw [not_or, not_not] at hnot
  exact hskip hnot

theorem readSegmentIn_rejects (hloaded : segment.Loaded)
    (hstart : ¬ segment.pPaddr.toNat < FLASH_SIZE_BYTES) :
    readSegmentIn overflowChecks elfContent flashMap segment =
      .err "physical address exceeds flash capacity" := by
  unfold readSegmentIn
  rw [if_neg (by simp [hloaded.1, hloaded.2]), if_pos hstart]

theorem readSegmentIn_eq (hloaded : segment.Loaded)
    (hstart : segment.pPaddr.toNat < FLASH_SIZE_BYTES) :
    readSegmentIn overflowChecks elfContent flashMap segment =
      (addIn overflowChecks 64 segment.pOffset.toNat segment.pFilesz.toNat >>= fun stop =>
        sliceOf elfContent.val segment.pOffset.toNat stop) >>= fun content =>
          iterPageContentIn overflowChecks 128 segment.pPaddr.toNat content >>=
            fillFlashMap 128 flashMap := by
  have haddr : asU16 segment.pPaddr.toNat = segment.pPaddr.toNat :=
    Nat.mod_eq_of_lt (by unfold FLASH_SIZE_BYTES at hstart; omega)
  unfold readSegmentIn
  rw [if_neg (by simp [hloaded.1, hloaded.2]), if_neg (not_not.mpr hstart), haddr]
  cases addIn overflowChecks 64 segment.pOffset.toNat segment.pFilesz.toNat with
  | ok stop => rfl
  | err message => rfl
  | panic => rfl

/-- Pages that have been cut out are filled in, so a panic comes from before. -/
theorem fillPages_ne_panic {physAddr : Nat} {content : List (BitVec 8)} :
    (iterPageContentIn overflowChecks 128 physAddr content >>= fillFlashMap 128 flashMap) ≠ .panic ↔
      iterPageContentIn overflowChecks 128 physAddr content ≠ .panic := by
  rw [Outcome.bind_ne_panic]
  refine and_iff_left ?_
  intro items hitems
  obtain ⟨after, hfill⟩ := fillFlashMap_inside flashMap (iterPageContentIn_inside hitems)
  rw [hfill]
  exact Outcome.ok_ne_panic after

theorem readSegmentIn_ne_panic (hloaded : segment.Loaded)
    (hstart : segment.pPaddr.toNat < FLASH_SIZE_BYTES) :
    readSegmentIn overflowChecks elfContent flashMap segment ≠ .panic ↔
      segment.Readable overflowChecks elfContent.val := by
  have hpos : 0 < segment.pFilesz.toNat := by
    rcases Nat.eq_zero_or_pos segment.pFilesz.toNat with hzero | hpos
    · exact absurd (BitVec.eq_of_toNat_eq hzero) hloaded.2
    · exact hpos
  rw [readSegmentIn_eq hloaded hstart]
  by_cases hin : segment.pOffset.toNat + segment.pFilesz.toNat ≤ elfContent.val.length
  · have hlength : (segment.content elfContent.val).length = segment.pFilesz.toNat := by
      simp only [ProgramHeader.content, List.length_drop, List.length_take]
      omega
    have hne : segment.content elfContent.val ≠ [] := by
      apply List.ne_nil_of_length_pos
      omega
    rw [segmentSlice_inside hin, Outcome.ok_bind, fillPages_ne_panic,
      iterPageContentIn_ne_panic hne, hlength]
    exact ⟨fun hcounted => ⟨hin, hcounted⟩, fun readable => readable.counted⟩
  · rw [segmentSlice_outside hin]
    exact iff_of_false (fun h => h rfl) (fun readable => hin readable.in_file)

theorem readSegmentIn_ok (flashMap : FlashMap FLASH_PAGE_SIZE_BYTES) (hloaded : segment.Loaded)
    (hstart : segment.pPaddr.toNat < FLASH_SIZE_BYTES)
    (readable : segment.Readable overflowChecks elfContent.val) :
    ∃ after, readSegmentIn overflowChecks elfContent flashMap segment = .ok after := by
  have hpanic : readSegmentIn overflowChecks elfContent flashMap segment ≠ .panic :=
    (readSegmentIn_ne_panic hloaded hstart).mpr readable
  rw [readSegmentIn_eq hloaded hstart, segmentSlice_inside readable.in_file, Outcome.ok_bind]
    at hpanic ⊢
  obtain ⟨items, hitems⟩ := (iterPageContentIn_neverErr _ _).ok_of_ne_panic
    (fillPages_ne_panic.mp hpanic)
  obtain ⟨after, hfill⟩ := fillFlashMap_inside flashMap (iterPageContentIn_inside hitems)
  exact ⟨after, by rw [hitems]; exact hfill⟩

/-- The headers up to the first one turned away decide whether the loop panics. -/
theorem readSegmentsIn_ne_panic (segments : List ProgramHeader) :
    segments.foldlM (readSegmentIn overflowChecks elfContent) flashMap ≠ .panic ↔
      ∀ segment ∈ segments.takeWhile (fun segment => decide segment.PassesCheck),
        segment.Loaded → segment.Readable overflowChecks elfContent.val := by
  induction segments generalizing flashMap with
  | nil => exact iff_of_true (Outcome.ok_ne_panic flashMap) (by simp)
  | cons segment segments ih =>
    rw [List.foldlM_cons]
    by_cases hloaded : segment.Loaded
    · by_cases hstart : segment.pPaddr.toNat < FLASH_SIZE_BYTES
      · have hpasses : decide segment.PassesCheck = true := decide_eq_true (fun _ => hstart)
        rw [List.takeWhile_cons, if_pos hpasses, List.forall_mem_cons, Outcome.bind_ne_panic,
          readSegmentIn_ne_panic hloaded hstart]
        constructor
        · rintro ⟨readable, hrest⟩
          obtain ⟨after, hread⟩ := readSegmentIn_ok flashMap hloaded hstart readable
          exact ⟨fun _ => readable, ih.mp (hrest after hread)⟩
        · rintro ⟨readable, hrest⟩
          exact ⟨readable hloaded, fun after _ => ih.mpr hrest⟩
      · have hfails : ¬ decide segment.PassesCheck = true :=
          fun hpasses => hstart (of_decide_eq_true hpasses hloaded)
        rw [List.takeWhile_cons, if_neg hfails, readSegmentIn_rejects hloaded hstart]
        exact iff_of_true (Outcome.err_ne_panic _) (by simp)
    · have hpasses : decide segment.PassesCheck = true :=
        decide_eq_true (fun h => absurd h hloaded)
      rw [List.takeWhile_cons, if_pos hpasses, List.forall_mem_cons, readSegmentIn_skips hloaded,
        Outcome.ok_bind, ih]
      exact (and_iff_right (fun h => absurd h hloaded)).symm

/-- In any build, reading the flash data ends with a value or an error exactly if each loaded
segment up to the first one turned away is in the file, and is not so long that a page counter
with overflow checks runs out. -/
theorem readFlashDataIn_ne_panic
    (minimalParse : ByteSlice → Option (Option (List ProgramHeader))) (elfContent : ByteSlice) :
    readFlashDataIn overflowChecks minimalParse elfContent ≠ .panic ↔
      ∀ segments, minimalParse elfContent = some (some segments) →
        ∀ segment ∈ segments.takeWhile (fun segment => decide segment.PassesCheck),
          segment.Loaded → segment.Readable overflowChecks elfContent.val := by
  unfold readFlashDataIn
  cases hparse : minimalParse elfContent with
  | none => exact iff_of_true (Outcome.err_ne_panic _) (fun _ h => (Option.some_ne_none _ h.symm).elim)
  | some table =>
    cases table with
    | none => exact iff_of_true (Outcome.err_ne_panic _) (by simp)
    | some segments =>
      simp only [Outcome.bind_ne_panic, Option.some.injEq, forall_eq']
      rw [readSegmentsIn_ne_panic]
      exact and_iff_left (fun _ _ => Outcome.ok_ne_panic _)

end Headers

/-- A file whose one segment is said to be a byte longer than the file. -/
def longHeader : ProgramHeader := ⟨PT_LOAD, 84#64, 3#64, 8190#64⟩

def longElf : ByteSlice :=
  ⟨lastBytesElf.val.set 68 0x03, by decide⟩

theorem readFlashData_panics :
    readFlashDataIn true (fun _ => some (some [longHeader])) longElf = .panic ∧
      readFlashDataIn false (fun _ => some (some [longHeader])) longElf = .panic := by
  exact ⟨rfl, rfl⟩

end MyMouse
