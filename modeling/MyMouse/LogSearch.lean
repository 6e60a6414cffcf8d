import MyMouse.LogRotation
import MyMouse.Run
import Mathlib.Data.Int.Order.Basic
import Mathlib.Order.Lattice

namespace MyMouse

open Rotation

section Folds

variable {ι α : Type} [LinearOrder α] (key : ι → α) (p : ι → Prop) [DecidablePred p]

/-- The greatest key of the entries that count, or the start where that is greater. -/
theorem foldl_best (start : α) (xs : List ι) :
    (∀ x ∈ xs, p x → key x ≤ xs.foldl (fun best x => if p x ∧ best < key x then key x else best)
      start) ∧
    start ≤ xs.foldl (fun best x => if p x ∧ best < key x then key x else best) start ∧
    (xs.foldl (fun best x => if p x ∧ best < key x then key x else best) start = start ∨
      ∃ x ∈ xs, p x ∧
        xs.foldl (fun best x => if p x ∧ best < key x then key x else best) start = key x) := by
  induction xs generalizing start with
  | nil => simp
  | cons y ys ih =>
    rw [List.foldl_cons]
    generalize hnext : (if p y ∧ start < key y then key y else start) = next
    obtain ⟨hall, hle, hfrom⟩ := ih next
    have hstart : start ≤ next ∧ (p y → key y ≤ next) ∧ (next = start ∨ p y ∧ next = key y) := by
      rw [← hnext]
      split
      next h => exact ⟨h.2.le, fun _ => le_refl _, Or.inr ⟨h.1, rfl⟩⟩
      next h => exact ⟨le_refl _, fun hp => not_lt.mp fun hlt => h ⟨hp, hlt⟩, Or.inl rfl⟩
    obtain ⟨hgrown, hy, hcases⟩ := hstart
    refine ⟨?_, hgrown.trans hle, ?_⟩
    · intro x hx hp
      rcases List.mem_cons.mp hx with rfl | hx
      · exact (hy hp).trans hle
      · exact hall x hx hp
    · rcases hfrom with hsame | ⟨x, hx, hp, hkey⟩
      · rw [hsame]
        rcases hcases with heq | ⟨hp, heq⟩
        · exact Or.inl heq
        · exact Or.inr ⟨y, List.mem_cons_self, hp, heq⟩
      · exact Or.inr ⟨x, List.mem_cons_of_mem _ hx, hp, hkey⟩

theorem foldl_worst (start : α) (xs : List ι) :
    (∀ x ∈ xs, p x → xs.foldl (fun worst x => if p x ∧ key x < worst then key x else worst)
      start ≤ key x) ∧
    xs.foldl (fun worst x => if p x ∧ key x < worst then key x else worst) start ≤ start ∧
    (xs.foldl (fun worst x => if p x ∧ key x < worst then key x else worst) start = start ∨
      ∃ x ∈ xs, p x ∧
        xs.foldl (fun worst x => if p x ∧ key x < worst then key x else worst) start = key x) :=
  @foldl_best ι (OrderDual α) _ key p _ start xs

end Folds

section Reading

variable {α : Type} {config : LogConfig}

theorem readEntries_quiet (fs : LogFs) (turn : α → FileName → DirEntry → α)
    (entries : List (Sigma fun _ : FileName => DirEntry)) (acc : α) (quiet : fs.outcomes = []) :
    readEntries turn entries acc fs =
      (0, entries.foldl (fun acc e => turn acc e.1 e.2) acc, fs) := by
  induction entries generalizing acc with
  | nil => simp only [readEntries, LogFs.call_quiet quiet, List.foldl_nil]
  | cons e entries ih =>
    simp only [readEntries, LogFs.call_quiet quiet, List.foldl_cons]
    rw [if_neg (by decide)]
    exact ih _

def fileId (config : LogConfig) (e : Sigma fun _ : FileName => DirEntry) : Int :=
  getLogFileId config e.1 e.2

theorem scanTurn_fields (scan : LogScan) (e : Sigma fun _ : FileName => DirEntry) :
    (scanTurn config scan e.1 e.2).max =
      (if 0 ≤ fileId config e ∧ scan.max < fileId config e then fileId config e else scan.max) ∧
    (scanTurn config scan e.1 e.2).min =
      (if 0 ≤ fileId config e ∧ fileId config e < scan.min then fileId config e else scan.min) ∧
    (scanTurn config scan e.1 e.2).fileCtr =
      scan.fileCtr + (if 0 ≤ fileId config e then 1 else 0) := by
  have hid : getLogFileId config e.1 e.2 = fileId config e := rfl
  unfold scanTurn
  rw [hid]
  by_cases h : 0 ≤ fileId config e
  · simp [h]
  · simp [h]

theorem scan_max (config : LogConfig) (scan : LogScan) (entries : List (Sigma fun _ : FileName => DirEntry)) :
    (entries.foldl (fun scan e => scanTurn config scan e.1 e.2) scan).max =
      entries.foldl (fun max e =>
        if 0 ≤ fileId config e ∧ max < fileId config e then fileId config e else max) scan.max := by
  symm
  exact List.foldl_hom LogScan.max fun scan e => (scanTurn_fields scan e).1.symm

theorem scan_min (config : LogConfig) (scan : LogScan) (entries : List (Sigma fun _ : FileName => DirEntry)) :
    (entries.foldl (fun scan e => scanTurn config scan e.1 e.2) scan).min =
      entries.foldl (fun min e =>
        if 0 ≤ fileId config e ∧ fileId config e < min then fileId config e else min) scan.min := by
  symm
  exact List.foldl_hom LogScan.min fun scan e => (scanTurn_fields scan e).2.1.symm

theorem scan_fileCtr (config : LogConfig) (scan : LogScan) (entries : List (Sigma fun _ : FileName => DirEntry)) :
    (entries.foldl (fun scan e => scanTurn config scan e.1 e.2) scan).fileCtr =
      scan.fileCtr + (entries.filter (fun e => 0 ≤ fileId config e)).length := by
  induction entries generalizing scan with
  | nil => simp
  | cons e entries ih =>
    rw [List.foldl_cons, ih, (scanTurn_fields scan e).2.2, List.filter_cons]
    by_cases h : 0 ≤ fileId config e
    · rw [if_pos h, if_pos (decide_eq_true h), List.length_cons]
      omega
    · rw [if_neg h, if_neg (by simp [h])]
      omega

theorem wrapped_newest (config : LogConfig) (min max : Int) (ends : Int × Int)
    (entries : List (Sigma fun _ : FileName => DirEntry)) :
    (entries.foldl (fun ends e => wrappedTurn config min max ends e.1 e.2) ends).1 =
      entries.foldl (fun best e => if fileId config e < min + config.filesLimit ∧
        best < fileId config e then fileId config e else best) ends.1 := by
  symm
  exact List.foldl_hom Prod.fst fun _ _ => rfl

theorem wrapped_oldest (config : LogConfig) (min max : Int) (ends : Int × Int)
    (entries : List (Sigma fun _ : FileName => DirEntry)) :
    (entries.foldl (fun ends e => wrappedTurn config min max ends e.1 e.2) ends).2 =
      entries.foldl (fun worst e => if fileId config e > max - config.filesLimit ∧
        fileId config e < worst then fileId config e else worst) ends.2 := by
  symm
  exact List.foldl_hom Prod.snd fun _ _ => rfl

end Reading

namespace HoldsFrom

variable {config : LogConfig} {first : Int} {segments : List (List (BitVec 8))} {entries : LogDir}

/-- The numbers found in the directory are those of the segments. -/
theorem exists_fileId_iff (h : HoldsFrom config first segments entries) (num : Int)
    (hnum : 0 ≤ num) :
    (∃ e ∈ entries.entries, fileId config e = num) ↔
      ∃ i < segments.length, num = numeral first i := by
  constructor
  · rintro ⟨⟨name, entry⟩, hmem, hid⟩
    have hlookup : entries.lookup name = some entry := AList.mem_lookup_iff.mpr hmem
    change getLogFileId config name entry = num at hid
    obtain ⟨i, hi, rfl⟩ := h.only name entry hlookup (by omega)
    cases entry with
    | dir => exact absurd hlookup (h.noDirs _ (numeral_nonneg _ _) (numeral_le _ _))
    | file content =>
      rw [getLogFileId_logFileName (numeral_nonneg _ _) (numeral_le _ _)] at hid
      exact ⟨i, hi, hid.symm⟩
  · rintro ⟨i, hi, rfl⟩
    refine ⟨⟨_, .file segments[i]⟩, AList.mem_lookup_iff.mp (h.files i hi), ?_⟩
    exact getLogFileId_logFileName (numeral_nonneg _ _) (numeral_le _ _) _

theorem count (h : HoldsFrom config first segments entries) (hlen : segments.length ≤ 10000) :
    (entries.entries.filter (fun e => 0 ≤ fileId config e)).length = segments.length := by
  have hperm : ((entries.entries.filter (fun e => 0 ≤ fileId config e)).map Sigma.fst).Perm
      ((List.range segments.length).map fun i => logFileName config (numeral first i)) := by
    apply (List.perm_ext_iff_of_nodup ?_ ?_).mpr
    · intro name
      simp only [List.mem_map, List.mem_filter, decide_eq_true_eq, List.mem_range]
      constructor
      · rintro ⟨⟨name', entry⟩, ⟨hmem, hid⟩, rfl⟩
        obtain ⟨i, hi, hname⟩ := h.only name' entry (AList.mem_lookup_iff.mpr hmem) hid
        exact ⟨i, hi, hname.symm⟩
      · rintro ⟨i, hi, rfl⟩
        refine ⟨⟨_, .file segments[i]⟩, ⟨AList.mem_lookup_iff.mp (h.files i hi), ?_⟩, rfl⟩
        rw [fileId, getLogFileId_logFileName (numeral_nonneg _ _) (numeral_le _ _)]
        exact numeral_nonneg _ _
    · have hkeys : (entries.entries.map Sigma.fst).Nodup := entries.nodupKeys
      exact hkeys.sublist (List.filter_sublist.map _)
    · apply List.Nodup.map_on _ List.nodup_range
      intro i hi j hj hname
      have := List.mem_range.mp hi
      have := List.mem_range.mp hj
      exact name_injective (by omega) (by omega) hname
  have := hperm.length_eq
  simpa using this

/-- The first loop over the directory finds the ends of the range of the numbers. -/
theorem scan_spec (h : HoldsFrom config first segments entries) (hlo : 0 ≤ first)
    (hhi : first ≤ MAX_FILE_NUMERAL) (hlen : segments.length ≤ 10000) :
    let scan := entries.entries.foldl (fun scan e => scanTurn config scan e.1 e.2)
      (⟨0, MAX_FILE_NUMERAL, 0⟩ : LogScan)
    scan.fileCtr = segments.length ∧
    (segments = [] → scan.max = 0 ∧ scan.min = MAX_FILE_NUMERAL) ∧
    (segments ≠ [] → first + segments.length ≤ 10000 →
      scan.max = first + segments.length - 1 ∧ scan.min = first) ∧
    (10000 < first + segments.length → scan.max = MAX_FILE_NUMERAL ∧ scan.min = 0) := by
  intro scan
  have hmax := foldl_best (fileId config) (fun e => 0 ≤ fileId config e)
    (⟨0, MAX_FILE_NUMERAL, 0⟩ : LogScan).max entries.entries
  have hmin := foldl_worst (fileId config) (fun e => 0 ≤ fileId config e)
    (⟨0, MAX_FILE_NUMERAL, 0⟩ : LogScan).min entries.entries
  rw [← scan_max config ⟨0, MAX_FILE_NUMERAL, 0⟩] at hmax
  rw [← scan_min config ⟨0, MAX_FILE_NUMERAL, 0⟩] at hmin
  obtain ⟨hmaxAll, hmaxStart, hmaxFrom⟩ := hmax
  obtain ⟨hminAll, hminStart, hminFrom⟩ := hmin
  change ∀ e ∈ entries.entries, 0 ≤ fileId config e → fileId config e ≤ scan.max at hmaxAll
  change 0 ≤ scan.max at hmaxStart
  change scan.max = 0 ∨ _ at hmaxFrom
  change ∀ e ∈ entries.entries, 0 ≤ fileId config e → scan.min ≤ fileId config e at hminAll
  change scan.min ≤ MAX_FILE_NUMERAL at hminStart
  change scan.min = MAX_FILE_NUMERAL ∨ _ at hminFrom
  have hat : ∀ i < segments.length, numeral first i ≤ scan.max ∧ scan.min ≤ numeral first i := by
    intro i hi
    obtain ⟨e, he, hid⟩ := (h.exists_fileId_iff _ (numeral_nonneg first i)).mpr ⟨i, hi, rfl⟩
    have hnonneg : 0 ≤ fileId config e := by
      rw [hid]
      exact numeral_nonneg _ _
    have := hmaxAll e he hnonneg
    have := hminAll e he hnonneg
    omega
  have hmaxIs : scan.max = 0 ∨ ∃ i < segments.length, scan.max = numeral first i := by
    rcases hmaxFrom with hzero | ⟨e, he, hid, heq⟩
    · exact Or.inl hzero
    · exact Or.inr ((h.exists_fileId_iff _ hmaxStart).mp ⟨e, he, heq.symm⟩)
  have hminIs : scan.min = MAX_FILE_NUMERAL ∨ ∃ i < segments.length, scan.min = numeral first i := by
    rcases hminFrom with hzero | ⟨e, he, hid, heq⟩
    · exact Or.inl hzero
    · refine Or.inr ((h.exists_fileId_iff _ ?_).mp ⟨e, he, heq.symm⟩)
      change scan.min = fileId config e at heq
      omega
  unfold numeral at hat hmaxIs hminIs
  unfold MAX_FILE_NUMERAL at hminStart hminIs hhi ⊢
  refine ⟨?_, ?_, ?_, ?_⟩
  · have hcount := scan_fileCtr config ⟨0, MAX_FILE_NUMERAL, 0⟩ entries.entries
    rw [h.count hlen] at hcount
    change scan.fileCtr = 0 + (segments.length : Int) at hcount
    omega
  · rintro rfl
    simp only [List.length_nil, Nat.not_lt_zero, false_and, exists_false, or_false] at hmaxIs hminIs
    exact ⟨hmaxIs, hminIs⟩
  · intro hne hfits
    have hpos := List.length_pos_of_ne_nil hne
    have hlast := hat (segments.length - 1) (by omega)
    have hfirst := hat 0 hpos
    constructor
    · rcases hmaxIs with hzero | ⟨i, hi, heq⟩ <;> omega
    · rcases hminIs with hzero | ⟨i, hi, heq⟩ <;> omega
  · intro hwraps
    have htop := hat (9999 - first).toNat (by omega)
    have hbottom := hat (10000 - first).toNat (by omega)
    constructor
    · rcases hmaxIs with hzero | ⟨i, hi, heq⟩ <;> omega
    · rcases hminIs with hzero | ⟨i, hi, heq⟩ <;> omega

/-- Where the numbers have gone round, the second loop finds where they begin and end. -/
theorem wrapped_spec (h : HoldsFrom config first segments entries) (sound : config.Sound)
    (hlo : 0 ≤ first) (hhi : first ≤ MAX_FILE_NUMERAL)
    (hlimit : segments.length ≤ config.filesLimit) (hwraps : 10000 < first + segments.length) :
    entries.entries.foldl (fun ends e => wrappedTurn config 0 MAX_FILE_NUMERAL ends e.1 e.2)
        ((0, MAX_FILE_NUMERAL) : Int × Int) =
      (numeral first (segments.length - 1), first) := by
  have hfew := sound.filesLimit_lt
  generalize hends : entries.entries.foldl
    (fun ends e => wrappedTurn config 0 MAX_FILE_NUMERAL ends e.1 e.2)
    ((0, MAX_FILE_NUMERAL) : Int × Int) = ends
  have hnewest := foldl_best (fileId config)
    (fun e => fileId config e < 0 + config.filesLimit)
    ((0, MAX_FILE_NUMERAL) : Int × Int).1 entries.entries
  have holdest := foldl_worst (fileId config)
    (fun e => fileId config e > MAX_FILE_NUMERAL - config.filesLimit)
    ((0, MAX_FILE_NUMERAL) : Int × Int).2 entries.entries
  rw [← wrapped_newest config 0 MAX_FILE_NUMERAL (0, MAX_FILE_NUMERAL), hends]
    at hnewest
  rw [← wrapped_oldest config 0 MAX_FILE_NUMERAL (0, MAX_FILE_NUMERAL), hends]
    at holdest
  obtain ⟨hnewAll, hnewStart, hnewFrom⟩ := hnewest
  obtain ⟨holdAll, holdStart, holdFrom⟩ := holdest
  have hnewIs : ends.1 = 0 ∨ ∃ i < segments.length,
      ends.1 = numeral first i ∧ numeral first i < config.filesLimit := by
    rcases hnewFrom with hzero | ⟨e, he, hbound, heq⟩
    · exact Or.inl hzero
    · obtain ⟨i, hi, hnum⟩ := (h.exists_fileId_iff _ hnewStart).mp ⟨e, he, heq.symm⟩
      exact Or.inr ⟨i, hi, hnum, by omega⟩
  unfold MAX_FILE_NUMERAL at hhi holdAll holdStart holdFrom
  have holdIs : ends.2 = 9999 ∨ ∃ i < segments.length,
      ends.2 = numeral first i ∧ 9999 - config.filesLimit < numeral first i := by
    rcases holdFrom with hzero | ⟨e, he, hbound, heq⟩
    · exact Or.inl hzero
    · obtain ⟨i, hi, hnum⟩ := (h.exists_fileId_iff ends.2 (by omega)).mp ⟨e, he, heq.symm⟩
      exact Or.inr ⟨i, hi, hnum, by omega⟩
  have hnewGe : numeral first (segments.length - 1) ≤ ends.1 := by
    obtain ⟨e, he, hid⟩ := (h.exists_fileId_iff _ (numeral_nonneg first (segments.length - 1))).mpr
      ⟨segments.length - 1, by omega, rfl⟩
    rw [← hid]
    apply hnewAll e he
    rw [hid]
    unfold numeral
    omega
  have holdLe : ends.2 ≤ first := by
    have hfirst := numeral_zero hlo hhi
    obtain ⟨e, he, hid⟩ := (h.exists_fileId_iff _ hlo).mpr ⟨0, by omega, hfirst.symm⟩
    rw [← hid]
    apply holdAll e he
    rw [hid]
    omega
  unfold numeral at hnewIs hnewGe holdIs ⊢
  apply Prod.ext
  · rcases hnewIs with hzero | ⟨i, hi, heq, hbound⟩ <;> omega
  · rcases holdIs with hzero | ⟨i, hi, heq, hbound⟩ <;> omega

end HoldsFrom

section Starting

variable {config : LogConfig} {b : LogBackend} {older : List (List (BitVec 8))}

/-- After a restart the files are found and counted, wherever their numbers have got to. -/
theorem searchLastUsed_counts (sound : config.Sound) (h : Down config b older)
    (listed : config.dir ∈ b.fs.dirs) :
    ∃ b' first, searchLastUsed config b = (0, b') ∧ Counts config first older b' ∧
      (if b'.fileCtr ≥ 1 then nextNumeral b'.newest else b'.newest) =
        numeral first older.length ∧
      b'.fs.dirs = b.fs.dirs ∧ Kept config b b' := by
  obtain ⟨first, hlog, hlo, hhi⟩ := h.log
  have hlimit := h.limit
  have hfew := sound.filesLimit_lt
  have hsome := sound.someFile
  have hscan := hlog.scan_spec hlo hhi (by omega)
  simp only at hscan
  have hread := readEntries_quiet b.fs (scanTurn config) b.fs.entries.entries
    ⟨0, MAX_FILE_NUMERAL, 0⟩ h.quiet
  generalize b.fs.entries.entries.foldl (fun scan e => scanTurn config scan e.1 e.2)
    (⟨0, MAX_FILE_NUMERAL, 0⟩ : LogScan) = scan at hscan hread
  obtain ⟨hctr, hempty, hplain, hwrapped⟩ := hscan
  have hopen := LogFs.opendir_quiet h.quiet listed
  have hcall := LogFs.call_quiet h.quiet
  have hcounts : ∀ first' newest oldest, HoldsFrom config first' older b.fs.entries →
      0 ≤ first' → first' ≤ MAX_FILE_NUMERAL → OldestAt oldest first' →
      Counts config first' older { b with fileCtr := scan.fileCtr, newest, oldest } :=
    fun first' newest oldest hlog' hlo' hhi' hold => ⟨h.quiet, hlog', hlo', hhi', hold, hctr⟩
  have hkept : ∀ newest oldest, Kept config b { b with fileCtr := scan.fileCtr, newest, oldest } :=
    fun _ _ => ⟨SameForeign.refl _, rfl, rfl, rfl⟩
  -- what the search comes to where the second loop is not needed
  have hsingle : ¬ (scan.fileCtr > 1 ∧ scan.max - scan.min > 2 * config.filesLimit) →
      searchLastUsed config b =
        (0, { b with fileCtr := scan.fileCtr, newest := scan.max, oldest := scan.min }) := by
    intro hnot
    simp only [searchLastUsed, hopen, le_refl, if_true, h.fileCtr, hread, if_neg hnot, hcall]
  by_cases hnil : older = []
  · obtain ⟨hmax, hmin⟩ := hempty hnil
    subst hnil
    simp only [List.length_nil] at hctr
    refine ⟨_, 0, hsingle (by omega), ?_, ?_, rfl, hkept _ _⟩
    · apply hcounts 0 _ _ (hlog.nil_first 0) (le_refl _) (by decide)
      exact Or.inr ⟨hmin, rfl⟩
    · change (if scan.fileCtr ≥ 1 then _ else scan.max) = _
      rw [if_neg (by omega), hmax]
      decide
  · have hpos := List.length_pos_of_ne_nil hnil
    have hnext : ∀ b' : LogBackend, b'.fileCtr = scan.fileCtr →
        b'.newest = numeral first (older.length - 1) →
        (if b'.fileCtr ≥ 1 then nextNumeral b'.newest else b'.newest) =
          numeral first older.length := by
      intro b' hctr' hnewest
      rw [if_pos (by omega), hnewest, nextNumeral_numeral]
      congr 1
      omega
    by_cases hfits : first + older.length ≤ 10000
    · obtain ⟨hmax, hmin⟩ := hplain hnil hfits
      refine ⟨_, first, hsingle (by omega), hcounts first _ _ hlog hlo hhi (Or.inl hmin), ?_, rfl,
        hkept _ _⟩
      apply hnext _ rfl
      change scan.max = _
      unfold numeral
      omega
    · obtain ⟨hmax, hmin⟩ := hwrapped (by omega)
      have hboth : scan.fileCtr > 1 ∧ scan.max - scan.min > 2 * config.filesLimit := by
        have := sound.fewFiles
        unfold MAX_FILE_NUMERAL at hhi
        omega
      have hends := hlog.wrapped_spec sound hlo hhi hlimit (by omega)
      have hagain := readEntries_quiet b.fs (wrappedTurn config 0 MAX_FILE_NUMERAL)
        b.fs.entries.entries (0, MAX_FILE_NUMERAL) h.quiet
      rw [hends] at hagain
      refine ⟨{ b with
        fileCtr := scan.fileCtr, newest := numeral first (older.length - 1), oldest := first },
        first, ?_, hcounts first _ _ hlog hlo hhi (Or.inl rfl), hnext _ rfl rfl, rfl, hkept _ _⟩
      rw [hmax, hmin] at hboth
      simp only [searchLastUsed, hopen, le_refl, if_true, h.fileCtr, hread, hmax, hmin,
        if_pos hboth, hcall, hagain]

theorem Down.allocate (h : Down config b older) (sound : config.Sound)
    (listed : config.dir ∈ b.fs.dirs) :
    ∃ b', allocateNewFile config b = some (0, b') ∧
      Up config b' (RotatingLog.makeRoom sound.limits older) [] ∧
      SameForeign config b.fs.entries b'.fs.entries ∧ b'.fs.mounts = b.fs.mounts ∧
      b'.fs.dirs = b.fs.dirs := by
  obtain ⟨b₁, first, hsearch, hcounts, hnum, hdirs, hkept₁⟩ :=
    searchLastUsed_counts sound h listed
  have hlimit := h.limit
  have hfew := sound.filesLimit_lt
  have hcounts' : Counts config first older { b₁ with backendState := .ok } :=
    ⟨hcounts.quiet, hcounts.log, hcounts.first_nonneg, hcounts.first_le, hcounts.oldest,
      hcounts.fileCtr⟩
  obtain ⟨b', hopen, hup, hkept⟩ := openNumbered_up sound hcounts' rfl
    (show config.dir ∈ b₁.fs.dirs by rw [hdirs]; exact listed) (by omega)
  refine ⟨b', ?_, hup, hkept₁.foreign.trans hkept.foreign, hkept.mounts.trans hkept₁.mounts,
    hkept.dirs.trans hdirs⟩
  rw [allocateNewFile, if_pos h.state, hsearch]
  dsimp only
  rw [if_neg (by decide), hnum]
  exact hopen

end Starting

section CreateLogDir

theorem strchr_spec {s : List Char} {start next : Nat} {c : Char}
    (h : strchr s start c = some next) : start ≤ next ∧ s[next]? = some c := by
  obtain ⟨i, hi, rfl⟩ := Option.map_eq_some_iff.mp h
  obtain ⟨hlt, hc, _⟩ := List.findIdx?_eq_some_iff_getElem.mp hi
  refine ⟨Nat.le_add_right _ _, ?_⟩
  rw [← List.getElem?_drop, List.getElem?_eq_getElem hlt]
  exact congrArg some (of_decide_eq_true hc)

/-- Each directory on the way to `path` is there when the next one is made, `path` the last. -/
theorem createLogDirFrom_quiet {path : List Char} (ends : path.getLast? ≠ some '/') (turns : Nat)
    (next : Nat) (fs : LogFs) (quiet : fs.outcomes = [])
    (ahead : path ∈ fs.dirs ∨ next + 1 < path.length ∧ path.length ≤ next + turns) :
    ∃ dirs, createLogDirFrom path turns next fs = (0, { fs with dirs }) ∧ path ∈ dirs := by
  have hslash : ∀ i, path[i]? = some '/' → i + 1 < path.length := by
    intro i hi
    obtain ⟨hlt, hget⟩ := List.getElem?_eq_some_iff.mp hi
    by_contra hlast
    apply ends
    rw [List.getLast?_eq_getElem?, show path.length - 1 = i by omega, hi]
  induction turns generalizing next fs with
  | zero =>
    rcases ahead with hmem | ⟨hlt, hle⟩
    · exact ⟨fs.dirs, rfl, hmem⟩
    · omega
  | succ turns ih =>
    rw [createLogDirFrom]
    dsimp only
    split
    next hend =>
      rcases ahead with hmem | ⟨hlt, hle⟩
      · exact ⟨fs.dirs, rfl, hmem⟩
      · omega
    next hgoes =>
      -- the directory tried in this turn is there afterwards
      have hmake : ∀ wPath, ∃ dirs,
          (if (fs.opendir wPath).1 ≠ 0 then (fs.opendir wPath).2.mkdir wPath
            else ((fs.opendir wPath).1, (fs.opendir wPath).2)) = (0, { fs with dirs }) ∧
          wPath ∈ dirs ∧ ∀ d ∈ fs.dirs, d ∈ dirs := by
        intro wPath
        by_cases hmem : wPath ∈ fs.dirs
        · refine ⟨fs.dirs, ?_, hmem, fun _ h => h⟩
          simp [LogFs.opendir_quiet quiet hmem]
        · refine ⟨wPath :: fs.dirs, ?_, List.mem_cons_self, fun _ h => List.mem_cons_of_mem _ h⟩
          simp [LogFs.opendir, LogFs.call_quiet quiet, hmem, LogFs.mkdir, ENOENT]
      split
      next hnone =>
        obtain ⟨dirs, hrun, hmem, _⟩ := hmake (path.take (path.length - 1 + 1))
        rw [hrun]
        dsimp only
        rw [if_neg (by decide), @LogFs.call_quiet { fs with dirs } quiet]
        rw [List.take_of_length_le (by omega)] at hmem
        exact ih _ { fs with dirs } quiet (Or.inl hmem)
      next next' hsome =>
        obtain ⟨hafter, hat⟩ := strchr_spec hsome
        obtain ⟨dirs, hrun, _, hold⟩ := hmake (path.take next')
        rw [hrun]
        dsimp only
        rw [if_neg (by decide), @LogFs.call_quiet { fs with dirs } quiet]
        apply ih _ { fs with dirs } quiet
        rcases ahead with hmem | ⟨hlt, hle⟩
        · exact Or.inl (hold _ hmem)
        · exact Or.inr ⟨hslash next' hat, by omega⟩

theorem createLogDir_quiet {config : LogConfig} {fs : LogFs} (volume : Volume config fs)
    (quiet : fs.outcomes = []) :
    ∃ dirs, createLogDir config.dir fs = (0, { fs with dirs }) ∧ config.dir ∈ dirs := by
  unfold createLogDir
  split
  next hnone => exact ⟨fs.dirs, rfl, volume.reached hnone⟩
  next next hsome =>
    obtain ⟨_, hat⟩ := strchr_spec hsome
    obtain ⟨hlt, _⟩ := List.getElem?_eq_some_iff.mp hat
    apply createLogDirFrom_quiet volume.ends _ _ _ quiet
    right
    refine ⟨?_, by omega⟩
    by_contra hlast
    apply volume.ends
    rw [List.getLast?_eq_getElem?, show config.dir.length - 1 = next by omega, hat]

end CreateLogDir

theorem Down.initBackend {config : LogConfig} {b : LogBackend}
    {older : List (List (BitVec 8))} (h : Down config b older) (sound : config.Sound)
    (volume : Volume config b.fs) :
    ∃ b', initBackend config b = some b' ∧
      Up config b' (RotatingLog.makeRoom sound.limits older) [] ∧ Volume config b'.fs ∧
      SameForeign config b.fs.entries b'.fs.entries := by
  obtain ⟨dirs, hmade, hlisted⟩ := createLogDir_quiet volume h.quiet
  have hdown : Down config { b with fs := { b.fs with dirs } } older :=
    ⟨h.state, h.quiet, h.fileCtr, h.limit, h.log⟩
  obtain ⟨b', halloc, hup, hforeign, hmounts, hdirs⟩ := hdown.allocate sound hlisted
  refine ⟨b', ?_, hup, ⟨?_, fun _ => hup.listed, volume.ends⟩, hforeign⟩
  · simp only [MyMouse.initBackend, hmade, if_true, halloc, ne_eq, not_true, if_false,
      ← hup.state]
  · rw [hmounts]
    exact volume.mounted

end MyMouse
