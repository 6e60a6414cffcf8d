import MyMouse.AvrFlashing
import Mathlib.Data.List.Induction

namespace MyMouse

open Memory

/-- Which bytes of the flash have been given a value. -/
abbrev Image := Nat → Option (BitVec 8)

def Image.put (m : Image) (addr : Nat) (data : List (BitVec 8)) : Image :=
  write m addr (data.map some)

theorem Image.put_append {m : Image} {addr : Nat} {xs ys : List (BitVec 8)} :
    m.put addr (xs ++ ys) = (m.put addr xs).put (addr + xs.length) ys := by
  unfold Image.put
  rw [List.map_append, write_append, List.length_map]

@[simp] theorem Image.put_nil {m : Image} {addr : Nat} : m.put addr [] = m := write_nil

theorem Image.put_outside {m : Image} {addr a : Nat} {data : List (BitVec 8)}
    (h : a < addr ∨ addr + data.length ≤ a) : m.put addr data a = m a := by
  rcases h with hlo | hhi
  · exact write_of_lt hlo
  · exact write_of_ge (by simpa using hhi)

theorem Image.put_inside {m : Image} {addr a : Nat} {data : List (BitVec 8)} (hlo : addr ≤ a)
    (hhi : a - addr < data.length) : m.put addr data a = some data[a - addr] := by
  unfold Image.put
  rw [write_getElem hlo (by simpa using hhi), List.getElem_map]

namespace PageContent

variable {n : Nat}

def offset : PageContent n → Nat
  | .fullPage _ => 0
  | .partPage offset _ => offset

def bytes : PageContent n → List (BitVec 8)
  | .fullPage data => data.toList
  | .partPage _ data => data

theorem new_ok {offset : Nat} {data : List (BitVec 8)} (h : offset + data.length ≤ n) :
    ∃ content, PageContent.new n offset data = .ok content ∧ content.offset = offset ∧
      content.bytes = data := by
  unfold PageContent.new
  rw [if_neg (by omega)]
  split
  next hfull =>
    refine ⟨_, rfl, ?_, by simp [bytes]⟩
    change 0 = offset
    omega
  next => exact ⟨_, rfl, rfl, rfl⟩

structure Fits (content : PageContent n) : Prop where
  inside : content.offset + content.bytes.length ≤ n
  nonempty : content.bytes ≠ []

end PageContent

section Pages

variable {n : Nat} {flashMap : FlashMap n} {m : Image}

def putItem (m : Image) (item : Nat × PageContent n) : Image :=
  m.put (item.1 * n + item.2.offset) item.2.bytes

/-- The pages of the map are those with a byte in the image, padded with zeros. -/
structure Represents (flashMap : FlashMap n) (m : Image) : Prop where
  listed : ∀ p, p ∈ flashMap ↔ ∃ i < n, (m (p * n + i)).isSome
  bytes : ∀ p page, flashMap.lookup p = some page →
    ∀ (i : Nat) (h : i < n), page[i] = (m (p * n + i)).getD 0#8

theorem represents_empty : Represents (∅ : FlashMap n) (fun _ => none) := by
  refine ⟨fun p => by simp, ?_⟩
  intro p page hlookup
  simp at hlookup

theorem other_page {p q i : Nat} (hne : q ≠ p) (hi : i < n) :
    q * n + i < p * n ∨ p * n + n ≤ q * n + i := by
  rcases Nat.lt_or_gt_of_ne hne with hlt | hgt
  · left
    have := Nat.mul_le_mul_right n (Nat.succ_le_of_lt hlt)
    rw [Nat.succ_mul] at this
    omega
  · right
    have := Nat.mul_le_mul_right n (Nat.succ_le_of_lt hgt)
    rw [Nat.succ_mul] at this
    omega

theorem Represents.current (h : Represents flashMap m) (p i : Nat) (hi : i < n) :
    ((flashMap.lookup p).getD (Vector.replicate n 0#8))[i] = (m (p * n + i)).getD 0#8 := by
  cases hlookup : flashMap.lookup p with
  | some page => exact h.bytes p page hlookup i hi
  | none =>
    have hnot : ¬ p ∈ flashMap := AList.lookup_eq_none.mp hlookup
    have hnone : m (p * n + i) = none := by
      cases hm : m (p * n + i) with
      | none => rfl
      | some byte => exact absurd ((h.listed p).mpr ⟨i, hi, by simp [hm]⟩) hnot
    simp [hnone]

theorem Represents.insert (h : Represents flashMap m) {item : Nat × PageContent n}
    (fits : item.2.Fits) {page : PageBytes n}
    (hpage : ∀ (i : Nat) (hi : i < n), page[i] = (putItem m item (item.1 * n + i)).getD 0#8) :
    Represents (flashMap.insert item.1 page) (putItem m item) := by
  obtain ⟨inside, nonempty⟩ := fits
  have hlen := List.length_pos_of_ne_nil nonempty
  have hother : ∀ q i, q ≠ item.1 → i < n → putItem m item (q * n + i) = m (q * n + i) := by
    intro q i hne hi
    rcases other_page hne hi with hlo | hhi
    · exact Image.put_outside (Or.inl (by omega))
    · exact Image.put_outside (Or.inr (by omega))
  refine ⟨?_, ?_⟩
  · intro q
    rw [AList.mem_insert]
    by_cases heq : q = item.1
    · subst heq
      refine ⟨fun _ => ⟨item.2.offset, by omega, ?_⟩, fun _ => Or.inl rfl⟩
      unfold putItem
      rw [Image.put_inside (Nat.le_refl _) (by omega)]
      rfl
    · rw [h.listed q]
      constructor
      · rintro (hq | ⟨i, hi, hsome⟩)
        · exact absurd hq heq
        · exact ⟨i, hi, by rw [hother q i heq hi]; exact hsome⟩
      · rintro ⟨i, hi, hsome⟩
        exact Or.inr ⟨i, hi, by rw [← hother q i heq hi]; exact hsome⟩
  · intro q other hlookup i hi
    by_cases heq : q = item.1
    · subst heq
      rw [AList.lookup_insert] at hlookup
      cases Option.some.inj hlookup
      exact hpage i hi
    · rw [AList.lookup_insert_ne heq] at hlookup
      rw [hother q i heq hi]
      exact h.bytes q other hlookup i hi

theorem fillPage_represents (h : Represents flashMap m) {item : Nat × PageContent n}
    (fits : item.2.Fits) :
    ∃ after, fillPage n flashMap item = .ok after ∧ Represents after (putItem m item) := by
  have hinside := fits.inside
  obtain ⟨p, content⟩ := item
  cases content with
  | fullPage data =>
    refine ⟨_, rfl, h.insert fits (fun i hi => ?_)⟩
    unfold putItem
    rw [Image.put_inside (by simp [PageContent.offset]) (by simp [PageContent.bytes, PageContent.offset, hi])]
    simp [PageContent.bytes, PageContent.offset]
  | partPage offset data =>
    simp only [PageContent.offset, PageContent.bytes] at hinside
    simp only [fillPage, hinside, if_true]
    refine ⟨_, rfl, h.insert fits (fun i hi => ?_)⟩
    have hcurrent := h.current p i hi
    simp only [PageBytes.copyFrom, Vector.getElem_ofFn, putItem, PageContent.offset,
      PageContent.bytes, Fin.getElem_fin, hcurrent]
    by_cases hlo : offset ≤ i
    · rw [if_pos hlo]
      by_cases hhi : i - offset < data.length
      · rw [Image.put_inside (by omega) (by omega), List.getD_eq_getElem _ _ hhi]
        simp only [Option.getD_some]
        congr 1
        omega
      · rw [Image.put_outside (Or.inr (by omega)), List.getD_eq_default _ _ (by omega)]
    · rw [if_neg hlo, Image.put_outside (Or.inl (by omega))]

theorem fillFlashMap_represents (h : Represents flashMap m) {items : List (Nat × PageContent n)}
    (fits : ∀ item ∈ items, item.2.Fits) :
    ∃ after, fillFlashMap n flashMap items = .ok after ∧
      Represents after (items.foldl putItem m) := by
  refine Outcome.foldlM_ok (fun done after => Represents after (done.foldl putItem m)) items h ?_
  intro done item after hmem hafter
  obtain ⟨next, hfill, hnext⟩ := fillPage_represents hafter (fits item hmem)
  refine ⟨next, hfill, ?_⟩
  rw [List.foldl_append]
  exact hnext

/-- The chunks of a page-aligned block, each put on a page of its own, give the block. -/
theorem zipSuccessors_ok (hn : 0 < n) (xs : List (BitVec 8)) (addr : Nat)
    (hroom : addr + (chunks n xs).length + 1 < 2 ^ 16) :
    ∃ items, zipSuccessors n addr (chunks n xs) = .ok items ∧ (∀ item ∈ items, item.2.Fits) ∧
      ∀ m : Image, items.foldl putItem m = m.put (addr * n) xs := by
  induction hlen : xs.length using Nat.strongRecOn generalizing xs addr with
  | _ len ih =>
    by_cases hxs : xs = []
    · subst hxs
      refine ⟨[], ?_, by simp, fun m => by simp⟩
      simp only [chunks_nil, List.length_nil] at hroom
      simp [zipSuccessors, checkedAdd, show addr + 1 < 65536 by omega]
    · have hpos := List.length_pos_of_ne_nil hxs
      have hchunks := chunks_of_ne_nil hn hxs
      rw [hchunks] at hroom ⊢
      simp only [List.length_cons] at hroom
      have hfirst : 0 + (xs.take n).length ≤ n := by
        rw [List.length_take]
        omega
      obtain ⟨content, hnew, hoffset, hbytes⟩ := PageContent.new_ok hfirst
      have hrest : (xs.drop n).length < len := by
        rw [List.length_drop]
        omega
      obtain ⟨items, hzip, hfits, hfold⟩ := ih _ hrest (xs.drop n) (addr + 1) (by omega) rfl
      refine ⟨(addr, content) :: items, ?_, ?_, ?_⟩
      · have hadd : checkedAdd 16 addr 1 = .ok (addr + 1) := if_pos (by omega)
        simp only [zipSuccessors, hadd, hnew, hzip, Outcome.expect, Outcome.ok_bind, Outcome.pure_eq]
      · intro item hitem
        rcases List.mem_cons.mp hitem with rfl | hmem
        · refine ⟨by rw [hoffset, hbytes]; exact hfirst, ?_⟩
          rw [hbytes]
          apply List.ne_nil_of_length_pos
          rw [List.length_take]
          omega
        · exact hfits item hmem
      · intro m
        rw [List.foldl_cons, hfold]
        have hput : putItem m (addr, content) = m.put (addr * n) (xs.take n) := by
          simp [putItem, hoffset, hbytes]
        rw [hput]
        conv_rhs => rw [← List.take_append_drop n xs, Image.put_append]
        by_cases hfull : n ≤ xs.length
        · rw [List.length_take, Nat.min_eq_left hfull, Nat.succ_mul]
        · rw [List.drop_of_length_le (by omega)]
          simp

theorem splitAtOrAll_append (mid : Nat) (xs : List (BitVec 8)) :
    (splitAtOrAll mid xs).1 ++ (splitAtOrAll mid xs).2 = xs := by
  unfold splitAtOrAll
  split <;> simp

theorem splitAtOrAll_length (mid : Nat) (xs : List (BitVec 8)) :
    (splitAtOrAll mid xs).1.length ≤ mid ∧
      ((splitAtOrAll mid xs).1.length = mid ∨ (splitAtOrAll mid xs).2 = []) := by
  unfold splitAtOrAll
  split
  next h => exact ⟨by rw [List.length_take]; omega, Or.inl (by rw [List.length_take]; omega)⟩
  next h => exact ⟨by simp only; omega, Or.inr rfl⟩

/-- The items of a segment are non-empty, fit in their pages and together write the segment. -/
theorem iterPageContent_ok (hn : 0 < n) (hn16 : n < 2 ^ 16) {physAddr : Nat}
    {segment : List (BitVec 8)} (hne : segment ≠ [])
    (hroom : physAddr / n + (segment.length + n) / n + 2 < 2 ^ 16) :
    ∃ items, iterPageContent n physAddr segment = .ok items ∧ (∀ item ∈ items, item.2.Fits) ∧
      ∀ m : Image, items.foldl putItem m = m.put physAddr segment := by
  have h16 : asU16 n = n := Nat.mod_eq_of_lt hn16
  have hmod := Nat.mod_lt physAddr hn
  have hsum := splitAtOrAll_append (n - physAddr % n) segment
  obtain ⟨hle, hcut⟩ := splitAtOrAll_length (n - physAddr % n) segment
  generalize hsplit : splitAtOrAll (n - physAddr % n) segment = parts at hsum hle hcut
  obtain ⟨firstPart, rest⟩ := parts
  simp only at hsum hle hcut
  obtain ⟨content, hnew, hoffset, hbytes⟩ :=
    PageContent.new_ok (show physAddr % n + firstPart.length ≤ n by omega)
  have hrest : rest.length ≤ segment.length := by
    rw [← hsum, List.length_append]
    omega
  have hcount : (chunks n rest).length ≤ (segment.length + n) / n := by
    rw [Nat.le_div_iff_mul_le hn]
    have := length_chunks_le hn rest
    omega
  obtain ⟨items, hzip, hfits, hfold⟩ := zipSuccessors_ok hn rest (physAddr / n + 1) (by omega)
  refine ⟨(physAddr / n, content) :: items, ?_, ?_, ?_⟩
  · have hadd : checkedAdd 16 (physAddr / n) 1 = .ok (physAddr / n + 1) := if_pos (by omega)
    simp only [iterPageContent, h16, hsplit, hnew, hadd, hzip, Outcome.expect, Outcome.ok_bind,
      Outcome.pure_eq]
  · intro item hitem
    rcases List.mem_cons.mp hitem with rfl | hmem
    · refine ⟨by rw [hoffset, hbytes]; omega, ?_⟩
      rw [hbytes]
      rintro rfl
      rcases hcut with hzero | hnil
      · simp only [List.length_nil] at hzero
        omega
      · exact hne (by rw [← hsum, hnil]; rfl)
    · exact hfits item hmem
  · intro m
    have hput : putItem m (physAddr / n, content) = m.put physAddr firstPart := by
      simp only [putItem, hoffset, hbytes, Nat.div_add_mod' physAddr n]
    rw [List.foldl_cons, hfold, hput]
    conv_rhs => rw [← hsum, Image.put_append]
    rcases hcut with hfull | hnil
    · congr 1
      rw [hfull, Nat.succ_mul]
      have := Nat.div_add_mod' physAddr n
      omega
    · simp [hnil]

end Pages

namespace ProgramHeader

/-- Neither skipped for its type nor for having no data in the file. -/
def Loaded (segment : ProgramHeader) : Prop :=
  segment.pType = PT_LOAD ∧ segment.pFilesz ≠ 0#64

instance (segment : ProgramHeader) : Decidable segment.Loaded :=
  inferInstanceAs (Decidable (_ ∧ _))

/-- The content lies inside the file and its destination inside the flash. -/
structure InRange (elfContent : List (BitVec 8)) (segment : ProgramHeader) : Prop where
  in_file : segment.pOffset.toNat + segment.pFilesz.toNat ≤ elfContent.length
  starts_in_flash : segment.pPaddr.toNat < FLASH_SIZE_BYTES
  ends_in_flash : segment.pPaddr.toNat + segment.pFilesz.toNat ≤ FLASH_SIZE_BYTES

def Covers (segment : ProgramHeader) (addr : Nat) : Prop :=
  segment.Loaded ∧ segment.pPaddr.toNat ≤ addr ∧
    addr < segment.pPaddr.toNat + segment.pFilesz.toNat

instance (segment : ProgramHeader) (addr : Nat) : Decidable (segment.Covers addr) :=
  inferInstanceAs (Decidable (_ ∧ _ ∧ _))

def byteAt (elfContent : List (BitVec 8)) (addr : Nat) (segment : ProgramHeader) :
    Option (BitVec 8) :=
  if segment.Covers addr then
    elfContent[segment.pOffset.toNat + (addr - segment.pPaddr.toNat)]?
  else none

def content (elfContent : List (BitVec 8)) (segment : ProgramHeader) : List (BitVec 8) :=
  (elfContent.take (segment.pOffset.toNat + segment.pFilesz.toNat)).drop segment.pOffset.toNat

def putInto (elfContent : List (BitVec 8)) (m : Image) (segment : ProgramHeader) : Image :=
  if segment.Loaded then m.put segment.pPaddr.toNat (segment.content elfContent) else m

variable {elfContent : List (BitVec 8)} {segment : ProgramHeader} {m : Image}

theorem InRange.content_length (h : segment.InRange elfContent) :
    (segment.content elfContent).length = segment.pFilesz.toNat := by
  have := h.in_file
  simp only [content, List.length_drop, List.length_take]
  omega

theorem InRange.putInto_apply (h : segment.InRange elfContent) (addr : Nat) :
    segment.putInto elfContent m addr = (segment.byteAt elfContent addr).or (m addr) := by
  have hfile := h.in_file
  have hlen := h.content_length
  unfold putInto byteAt
  by_cases hloaded : segment.Loaded
  · rw [if_pos hloaded]
    by_cases hcovers : segment.Covers addr
    · obtain ⟨_, hlo, hhi⟩ := hcovers
      rw [if_pos ⟨hloaded, hlo, hhi⟩, Image.put_inside hlo (by omega),
        List.getElem?_eq_getElem (by omega)]
      simp [content]
    · rw [if_neg hcovers, Option.none_or]
      apply Image.put_outside
      by_contra hinside
      exact hcovers ⟨hloaded, by omega, by omega⟩
  · rw [if_neg hloaded, if_neg (fun hcovers => hloaded hcovers.1)]
    rfl

theorem InRange.byteAt_isSome (h : segment.InRange elfContent) (addr : Nat) :
    (segment.byteAt elfContent addr).isSome ↔ segment.Covers addr := by
  have hfile := h.in_file
  unfold byteAt
  by_cases hcovers : segment.Covers addr
  · obtain ⟨hloaded, hlo, hhi⟩ := hcovers
    rw [if_pos ⟨hloaded, hlo, hhi⟩, List.getElem?_eq_getElem (by omega)]
    simp [Covers, hloaded, hlo, hhi]
  · simp [hcovers]

end ProgramHeader

open ProgramHeader

section Segments

variable {elfContent : List (BitVec 8)} {segment : ProgramHeader} {segments : List ProgramHeader}

/-- The byte that the last segment covering an address puts there. -/
def lastByte (elfContent : List (BitVec 8)) (segments : List ProgramHeader) (addr : Nat) :
    Option (BitVec 8) :=
  segments.reverse.findSome? (byteAt elfContent addr)

theorem foldl_putInto (hrange : ∀ segment ∈ segments, segment.Loaded → segment.InRange elfContent)
    (addr : Nat) :
    segments.foldl (putInto elfContent) (fun _ => none) addr = lastByte elfContent segments addr := by
  induction segments using List.reverseRecOn with
  | nil => rfl
  | append_singleton segments segment ih =>
    have hbefore := ih (fun s hs => hrange s (by simp [hs]))
    rw [List.foldl_append, lastByte, List.reverse_append]
    simp only [List.foldl_cons, List.foldl_nil, List.reverse_singleton, List.singleton_append,
      List.findSome?_cons]
    by_cases hloaded : segment.Loaded
    · rw [(hrange segment (by simp) hloaded).putInto_apply, hbefore]
      cases byteAt elfContent addr segment <;> rfl
    · have hskip : byteAt elfContent addr segment = none := if_neg (fun h => hloaded h.1)
      rw [putInto, if_neg hloaded, hskip, hbefore]
      rfl

theorem lastByte_isSome (hrange : ∀ segment ∈ segments, segment.Loaded → segment.InRange elfContent)
    (addr : Nat) :
    (lastByte elfContent segments addr).isSome ↔ ∃ segment ∈ segments, segment.Covers addr := by
  simp only [lastByte, List.findSome?_isSome_iff, List.mem_reverse]
  constructor
  · rintro ⟨segment, hmem, hsome⟩
    have hloaded : segment.Loaded := by
      by_contra hnot
      rw [byteAt, if_neg (fun h => hnot h.1)] at hsome
      simp at hsome
    exact ⟨segment, hmem, ((hrange segment hmem hloaded).byteAt_isSome addr).mp hsome⟩
  · rintro ⟨segment, hmem, hcovers⟩
    exact ⟨segment, hmem, ((hrange segment hmem hcovers.1).byteAt_isSome addr).mpr hcovers⟩

theorem readSegment_ok {elfContent : ByteSlice} {flashMap : FlashMap FLASH_PAGE_SIZE_BYTES}
    {m : Image} (h : Represents flashMap m)
    (hrange : segment.Loaded → segment.InRange elfContent.val) :
    ∃ after, readSegment elfContent flashMap segment = .ok after ∧
      Represents after (segment.putInto elfContent.val m) := by
  unfold readSegment putInto
  by_cases hloaded : segment.Loaded
  · obtain ⟨htype, hsize⟩ := hloaded
    have hr := hrange ⟨htype, hsize⟩
    have hlen := hr.content_length
    have hstart : segment.pPaddr.toNat < 8192 := hr.starts_in_flash
    have hend : segment.pPaddr.toNat + segment.pFilesz.toNat ≤ 8192 := hr.ends_in_flash
    have hpos : 0 < segment.pFilesz.toNat := by
      rcases Nat.eq_zero_or_pos segment.pFilesz.toNat with hzero | hpos
      · exact absurd (BitVec.eq_of_toNat_eq hzero) hsize
      · exact hpos
    have hadd : checkedAdd 64 segment.pOffset.toNat segment.pFilesz.toNat =
        .ok (segment.pOffset.toNat + segment.pFilesz.toNat) := if_pos (by
          have := hr.in_file
          have := elfContent.property
          omega)
    have hslice : sliceOf elfContent.val segment.pOffset.toNat
        (segment.pOffset.toNat + segment.pFilesz.toNat) = .ok (segment.content elfContent.val) :=
      if_pos ⟨by omega, hr.in_file⟩
    have haddr : asU16 segment.pPaddr.toNat = segment.pPaddr.toNat := Nat.mod_eq_of_lt (by omega)
    obtain ⟨items, hiter, hfits, hfold⟩ := iterPageContent_ok
      (show 0 < FLASH_PAGE_SIZE_BYTES by decide) (show FLASH_PAGE_SIZE_BYTES < 2 ^ 16 by decide)
      (show segment.content elfContent.val ≠ [] from List.ne_nil_of_length_pos (by omega))
      (show segment.pPaddr.toNat / 128 + ((segment.content elfContent.val).length + 128) / 128 + 2 <
        2 ^ 16 by omega)
    obtain ⟨after, hfill, hafter⟩ := fillFlashMap_represents h hfits
    refine ⟨after, ?_, ?_⟩
    · rw [if_neg (by simp [htype, hsize]), if_neg (by simpa using hr.starts_in_flash)]
      simp only [hadd, hslice, haddr, hiter, Outcome.ok_bind]
      exact hfill
    · rw [if_pos ⟨htype, hsize⟩, ← hfold]
      exact hafter
  · rw [if_neg hloaded, if_pos (by
      simp only [Loaded, not_and_or, not_not] at hloaded
      exact hloaded)]
    exact ⟨flashMap, rfl, h⟩

theorem mem_sortedPages {n : Nat} {flashMap : FlashMap n} {p : Nat} {page : PageBytes n} :
    (p, page) ∈ sortedPages flashMap ↔ flashMap.lookup p = some page := by
  simp only [sortedPages, List.mem_mergeSort, List.mem_map, Prod.mk.injEq]
  rw [← Option.mem_def, AList.mem_lookup_iff]
  constructor
  · rintro ⟨⟨q, other⟩, hmem, rfl, rfl⟩
    exact hmem
  · intro hmem
    exact ⟨⟨p, page⟩, hmem, rfl, rfl⟩

theorem sortedPages_increasing {n : Nat} (flashMap : FlashMap n) :
    ((sortedPages flashMap).map Prod.fst).Pairwise (· < ·) := by
  have hsorted : (sortedPages flashMap).Pairwise (fun a b => a.1 ≤ b.1) := by
    refine (List.pairwise_mergeSort ?_ ?_ _).imp (fun h => of_decide_eq_true h)
    · intro a b c hab hbc
      simp only [decide_eq_true_eq] at hab hbc ⊢
      omega
    · intro a b
      simp only [Bool.or_eq_true, decide_eq_true_eq]
      omega
  have hnodup : ((sortedPages flashMap).map Prod.fst).Nodup := by
    have hperm : ((sortedPages flashMap).map Prod.fst).Perm flashMap.keys := by
      have hentries := (List.mergeSort_perm (flashMap.entries.map (fun e => (e.1, e.2)))
        (fun a b => decide (a.1 ≤ b.1))).map Prod.fst
      rw [List.map_map] at hentries
      exact hentries
    exact hperm.nodup_iff.mpr flashMap.keys_nodup
  have hle := List.pairwise_map.mpr hsorted
  exact (hle.and hnodup).imp (fun ⟨hle, hne⟩ => Nat.lt_of_le_of_ne hle hne)

theorem mem_listed {n : Nat} {flashMap : FlashMap n} {p : Nat} :
    p ∈ (sortedPages flashMap).map Prod.fst ↔ p ∈ flashMap := by
  rw [List.mem_map, ← AList.lookup_isSome, Option.isSome_iff_exists]
  constructor
  · rintro ⟨⟨q, page⟩, hpage, rfl⟩
    exact ⟨page, mem_sortedPages.mp hpage⟩
  · rintro ⟨page, hpage⟩
    exact ⟨(p, page), mem_sortedPages.mpr hpage, rfl⟩

/-- The loop over segments in range leaves the pages of their image. -/
theorem readSegments_ok (elfContent : ByteSlice)
    (hrange : ∀ segment ∈ segments, segment.Loaded → segment.InRange elfContent.val) :
    ∃ flashMap, segments.foldlM (readSegment elfContent) ∅ = .ok flashMap ∧
      Represents flashMap (lastByte elfContent.val segments) := by
  obtain ⟨flashMap, hfold, hmap⟩ := Outcome.foldlM_ok
    (fun done flashMap => Represents flashMap
      (done.foldl (putInto elfContent.val) (fun _ => none)))
    (f := readSegment elfContent) segments represents_empty (fun done segment flashMap hmem h => by
      obtain ⟨after, hread, hafter⟩ := readSegment_ok h (hrange segment hmem)
      refine ⟨after, hread, ?_⟩
      rw [List.foldl_append]
      exact hafter)
  have himage := funext (foldl_putInto hrange)
  rw [himage] at hmap
  exact ⟨flashMap, hfold, hmap⟩

/-- `read_flash_data` lists exactly the pages with a covered byte, in order, each holding
what the last covering segment puts there and zeros elsewhere. -/
theorem readFlashData_image (minimalParse : ByteSlice → Option (Option (List ProgramHeader)))
    (elfContent : ByteSlice) (segments : List ProgramHeader)
    (hparse : minimalParse elfContent = some (some segments))
    (hrange : ∀ segment ∈ segments, segment.Loaded → segment.InRange elfContent.val) :
    ∃ flashData, readFlashData minimalParse elfContent = .ok flashData ∧
      (flashData.map Prod.fst).Pairwise (· < ·) ∧
      (∀ p, p ∈ flashData.map Prod.fst ↔
        ∃ segment ∈ segments, ∃ i < 128, segment.Covers (128 * p + i)) ∧
      ∀ p page, (p, page) ∈ flashData → ∀ (i : Nat) (hi : i < 128),
        page[i] = (lastByte elfContent.val segments (128 * p + i)).getD 0#8 := by
  obtain ⟨flashMap, hfold, hmap⟩ := readSegments_ok elfContent hrange
  refine ⟨sortedPages flashMap, ?_, sortedPages_increasing flashMap, ?_, ?_⟩
  · simp only [readFlashData, hparse, hfold, Outcome.ok_bind, Outcome.pure_eq]
  · intro p
    rw [mem_listed, hmap.listed p]
    simp only [lastByte_isSome hrange, Nat.mul_comm p]
    constructor
    · rintro ⟨i, hi, segment, hsegment, hcovers⟩
      exact ⟨segment, hsegment, i, hi, hcovers⟩
    · rintro ⟨segment, hsegment, i, hi, hcovers⟩
      exact ⟨i, hi, segment, hsegment, hcovers⟩
  · intro p page hpage i hi
    have hbyte := hmap.bytes p page (mem_sortedPages.mp hpage) i hi
    rw [Nat.mul_comm] at hbyte
    exact hbyte

/-- Two headers of an AVR file: four bytes across the first page boundary, and two bytes
that replace those of them on the second page. -/
def overlappingHeaders : List ProgramHeader :=
  [⟨PT_LOAD, 116#64, 4#64, 126#64⟩, ⟨PT_LOAD, 120#64, 2#64, 128#64⟩]

/-- The file, with its header, its two program headers and the six bytes. -/
def overlappingElf : ByteSlice :=
  ⟨[0x7f, 0x45, 0x4c, 0x46, 0x01, 0x01, 0x01, 0x00, 0x00, 0x00, 0x00, 0x00, 0x00, 0x00, 0x00, 0x00,
    0x02, 0x00, 0x53, 0x00, 0x01, 0x00, 0x00, 0x00, 0x00, 0x00, 0x00, 0x00, 0x34, 0x00, 0x00, 0x00,
    0x00, 0x00, 0x00, 0x00, 0x00, 0x00, 0x00, 0x00, 0x34, 0x00, 0x20, 0x00, 0x02, 0x00, 0x28, 0x00,
    0x00, 0x00, 0x00, 0x00,
    0x01, 0x00, 0x00, 0x00, 0x74, 0x00, 0x00, 0x00, 0x7e, 0x00, 0x00, 0x00, 0x7e, 0x00, 0x00, 0x00,
    0x04, 0x00, 0x00, 0x00, 0x04, 0x00, 0x00, 0x00, 0x05, 0x00, 0x00, 0x00, 0x01, 0x00, 0x00, 0x00,
    0x01, 0x00, 0x00, 0x00, 0x78, 0x00, 0x00, 0x00, 0x80, 0x00, 0x00, 0x00, 0x80, 0x00, 0x00, 0x00,
    0x02, 0x00, 0x00, 0x00, 0x02, 0x00, 0x00, 0x00, 0x05, 0x00, 0x00, 0x00, 0x01, 0x00, 0x00, 0x00,
    0xaa, 0xbb, 0xcc, 0xdd, 0x11, 0x22], by decide⟩

theorem readFlashData_image_overlapping :
    ∃ flashData, readFlashData (fun _ => some (some overlappingHeaders)) overlappingElf =
        .ok flashData ∧
      (flashData.map Prod.fst).Pairwise (· < ·) ∧
      (∀ p, p ∈ flashData.map Prod.fst ↔
        ∃ segment ∈ overlappingHeaders, ∃ i < 128, segment.Covers (128 * p + i)) ∧
      ∀ p page, (p, page) ∈ flashData → ∀ (i : Nat) (hi : i < 128),
        page[i] = (lastByte overlappingElf.val overlappingHeaders (128 * p + i)).getD 0#8 := by
  refine readFlashData_image _ overlappingElf overlappingHeaders rfl ?_
  intro segment hmem _
  simp only [overlappingHeaders, List.mem_cons, List.not_mem_nil, or_false] at hmem
  rcases hmem with rfl | rfl
  · exact ⟨by decide +kernel, by decide, by decide⟩
  · exact ⟨by decide +kernel, by decide, by decide⟩

end Segments

end MyMouse
