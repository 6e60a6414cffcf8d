import MyMouse.LogRun
import Mathlib.Algebra.Order.BigOperators.Group.List
import Mathlib.Algebra.GroupWithZero.Nat
import Mathlib.Algebra.Order.Group.Nat

namespace MyMouse

open Runs

/-- The medium has room for what is written, or for nothing of it. -/
def FsOutcome.IsWhole : FsOutcome → Prop
  | .wrote _ => False
  | _ => True

instance : DecidablePred FsOutcome.IsWhole
  | .done => isTrue trivial
  | .failed _ => isTrue trivial
  | .wrote _ => isFalse (fun h => h)

namespace LogFs

/-- The file system after calls that change no file and leave the handle where it is. -/
structure Later (fs fs' : LogFs) : Prop where
  entries : fs'.entries = fs.entries
  file : fs'.file = fs.file
  outcomes : fs'.outcomes <:+ fs.outcomes

theorem Later.refl (fs : LogFs) : Later fs fs := ⟨rfl, rfl, List.suffix_refl _⟩

theorem Later.trans {a b c : LogFs} (hab : Later a b) (hbc : Later b c) : Later a c :=
  ⟨hbc.entries.trans hab.entries, hbc.file.trans hab.file, hbc.outcomes.trans hab.outcomes⟩

variable (fs : LogFs)

theorem call_spec : Later fs fs.call.2 ∧ fs.call.1 ≤ 0 := by
  unfold call
  split
  next => exact ⟨Later.refl fs, le_refl _⟩
  next error outcomes h =>
    exact ⟨⟨rfl, rfl, h ▸ List.suffix_cons _ _⟩, error.negative.le⟩
  next outcomes _ h => exact ⟨⟨rfl, rfl, h ▸ List.suffix_cons _ _⟩, le_refl _⟩

/-- A call that fails does not say that a file is missing. -/
theorem call_ne_missing : fs.call.1 ≠ -ENOENT := by
  unfold call
  split
  next =>
    unfold ENOENT
    omega
  next error outcomes h => exact error.notMissing
  next =>
    unfold ENOENT
    omega

theorem opendir_spec (path : List Char) :
    Later fs (fs.opendir path).2 ∧ (fs.opendir path).1 ≤ 0 := by
  obtain ⟨hlater, hrc⟩ := call_spec fs
  unfold opendir
  dsimp only
  split
  · exact ⟨hlater, hrc⟩
  · split
    · exact ⟨hlater, le_refl _⟩
    · exact ⟨hlater, by unfold ENOENT; omega⟩

theorem mkdir_later (path : List Char) : Later fs (fs.mkdir path).2 := by
  obtain ⟨hlater, _⟩ := call_spec fs
  unfold mkdir
  dsimp only
  split
  · exact hlater
  · split
    · exact hlater
    · exact ⟨hlater.entries, hlater.file, hlater.outcomes⟩

theorem tell_spec : Later fs fs.tell.2 ∧ (0 ≤ fs.tell.1 → fs.tell.1 = fs.file.pos) := by
  obtain ⟨hlater, _⟩ := call_spec fs
  unfold tell
  dsimp only
  split
  next hneg => exact ⟨hlater, fun h => by omega⟩
  next => exact ⟨hlater, fun _ => by rw [hlater.file]⟩

theorem unlink_spec (name : FileName) :
    ∃ fs', Later fs fs' ∧
      ((fs.unlink name = (0, { fs' with entries := fs'.entries.erase name }) ∧
          name ∈ fs.entries) ∨
        (fs.unlink name = (-ENOENT, fs') ∧ name ∉ fs.entries) ∨
        ∃ rc, fs.unlink name = (rc, fs') ∧ rc < 0 ∧ rc ≠ -ENOENT) := by
  obtain ⟨hlater, _⟩ := call_spec fs
  refine ⟨fs.call.2, hlater, ?_⟩
  unfold unlink
  dsimp only
  split
  next hneg => exact Or.inr (Or.inr ⟨_, rfl, hneg, call_ne_missing fs⟩)
  next =>
    split
    next h => exact Or.inl ⟨rfl, hlater.entries ▸ h⟩
    next h => exact Or.inr (Or.inl ⟨rfl, hlater.entries ▸ h⟩)

theorem openFile_spec (name : FileName) :
    ∃ fs', Later fs fs' ∧
      ((∃ rc, fs.openFile name = (rc, fs') ∧ rc < 0) ∨
        (fs.openFile name = (0, { fs' with file := ⟨name, 0⟩ }) ∧
          ∃ content, fs.entries.lookup name = some (.file content)) ∨
        (fs.openFile name = (0, { fs' with
            entries := fs'.entries.insert name (.file []), file := ⟨name, 0⟩ }) ∧
          name ∉ fs.entries)) := by
  obtain ⟨hlater, _⟩ := call_spec fs
  refine ⟨fs.call.2, hlater, ?_⟩
  unfold openFile entry
  dsimp only
  split
  next hneg => exact Or.inl ⟨_, rfl, hneg⟩
  next =>
    rw [hlater.entries]
    split
    next h => exact Or.inl ⟨_, rfl, by unfold EISDIR; omega⟩
    next content h => exact Or.inr (Or.inl ⟨rfl, content, h⟩)
    next h => exact Or.inr (Or.inr ⟨rfl, AList.lookup_eq_none.mp h⟩)

/-- No write of these is cut short. -/
def Whole : Prop := ∀ outcome ∈ fs.outcomes, outcome.IsWhole

theorem Later.whole {fs fs' : LogFs} (h : Later fs fs') (whole : fs.Whole) : fs'.Whole :=
  fun outcome hmem => whole outcome (h.outcomes.subset hmem)

theorem write_spec (data : List (BitVec 8)) (whole : fs.Whole) :
    ∃ fs', Later fs fs' ∧
      (fs.write data = ((data.length : Int), fs'.store data) ∨
        ∃ rc, fs.write data = (rc, fs') ∧ rc < 0) := by
  unfold write
  split
  next => exact ⟨fs, Later.refl fs, Or.inl rfl⟩
  next error outcomes h =>
    exact ⟨{ fs with outcomes }, ⟨rfl, rfl, h ▸ List.suffix_cons _ _⟩,
      Or.inr ⟨_, rfl, error.negative⟩⟩
  next count outcomes h => exact absurd (whole (.wrote count) (by simp [h])) (fun h => h)
  next outcomes h =>
    exact ⟨{ fs with outcomes }, ⟨rfl, rfl, h ▸ List.suffix_cons _ _⟩, Or.inl rfl⟩

end LogFs

open LogFs

/-- One turn of the loop of `create_log_dir`, before the next one. -/
theorem makeDir_later (wPath : List Char) {rest : LogFs → Int × LogFs}
    (hrest : ∀ fs, Later fs (rest fs).2) (fs : LogFs) :
    Later fs (let (rc, fs) := fs.opendir wPath
      let (rc, fs) := if rc ≠ 0 then fs.mkdir wPath else (rc, fs)
      if rc ≠ 0 then (rc, fs)
      else
        let (rc, fs) := fs.call
        if rc ≠ 0 then (rc, fs) else rest fs).2 := by
  have hmade : Later fs (if (fs.opendir wPath).1 ≠ 0 then
      (fs.opendir wPath).2.mkdir wPath else fs.opendir wPath).2 := by
    have hopen := (opendir_spec fs wPath).1
    split
    · exact hopen.trans (mkdir_later _ _)
    · exact hopen
  dsimp only
  generalize (if (fs.opendir wPath).1 ≠ 0 then (fs.opendir wPath).2.mkdir wPath
    else fs.opendir wPath) = made at hmade ⊢
  split
  · exact hmade
  · have hcall := (call_spec made.2).1
    split
    · exact hmade.trans hcall
    · exact (hmade.trans hcall).trans (hrest _)

theorem createLogDirFrom_later (path : List Char) (turns next : Nat) (fs : LogFs) :
    Later fs (createLogDirFrom path turns next fs).2 := by
  induction turns generalizing next fs with
  | zero => exact Later.refl fs
  | succ turns ih =>
    rw [createLogDirFrom]
    split
    · exact Later.refl fs
    · cases strchr path (next + 1) '/' with
      | none => exact makeDir_later _ (fun fs => ih _ fs) fs
      | some next => exact makeDir_later _ (fun fs => ih next fs) fs

theorem createLogDir_later (path : List Char) (fs : LogFs) :
    Later fs (createLogDir path fs).2 := by
  unfold createLogDir
  split
  · exact Later.refl fs
  · exact createLogDirFrom_later _ _ _ _

/-- The loop has taken its turns over a part of the directory, the whole of it unless it ends with
an error. -/
theorem readEntries_spec {α : Type} (turn : α → FileName → DirEntry → α)
    (entries : List (Sigma fun _ : FileName => DirEntry)) (acc : α) (fs : LogFs) :
    ∃ read, read <+: entries ∧
      (readEntries turn entries acc fs).2.1 = read.foldl (fun acc e => turn acc e.1 e.2) acc ∧
      Later fs (readEntries turn entries acc fs).2.2 ∧
      (readEntries turn entries acc fs).1 ≤ 0 ∧
      ((readEntries turn entries acc fs).1 = 0 → read = entries) := by
  induction entries generalizing acc fs with
  | nil =>
    obtain ⟨hlater, hrc⟩ := call_spec fs
    exact ⟨[], List.prefix_refl _, rfl, hlater, hrc, fun _ => rfl⟩
  | cons e entries ih =>
    obtain ⟨hlater, hrc⟩ := call_spec fs
    unfold readEntries
    dsimp only
    split
    next hneg => exact ⟨[], List.nil_prefix, rfl, hlater, hrc, fun h => by omega⟩
    next =>
      obtain ⟨read, hpre, hacc, hrest, hcode, hall⟩ := ih (turn acc e.1 e.2) fs.call.2
      refine ⟨e :: read, ?_, ?_, hlater.trans hrest, hcode, ?_⟩
      · exact List.cons_prefix_cons.mpr ⟨rfl, hpre⟩
      · rw [hacc, List.foldl_cons]
      · intro hzero
        rw [hall hzero]

section Checking

variable {config : LogConfig}

theorem findLogFile_spec (num : Int) (entries : List (Sigma fun _ : FileName => DirEntry))
    (fs : LogFs) :
    Later fs (findLogFile config num entries fs).2 ∧
      ((findLogFile config num entries fs).1 = 0 → ∀ e ∈ entries, fileId config e ≠ num) := by
  induction entries generalizing fs with
  | nil =>
    obtain ⟨hlater, _⟩ := call_spec fs
    exact ⟨hlater, fun _ e he => by cases he⟩
  | cons e entries ih =>
    obtain ⟨hlater, _⟩ := call_spec fs
    unfold findLogFile
    dsimp only
    split
    next => exact ⟨hlater, fun h => by unfold EIO at h; omega⟩
    next =>
      split
      next => exact ⟨hlater, fun h => by omega⟩
      next hother =>
        obtain ⟨hrest, hnone⟩ := ih fs.call.2
        refine ⟨hlater.trans hrest, ?_⟩
        intro hzero e' he'
        rcases List.mem_cons.mp he' with rfl | he'
        · exact hother
        · exact hnone hzero e' he'

/-- The file is found to be lost only where no entry has its number. -/
theorem checkLogFileExist_spec (num : Int) (fs : LogFs) :
    Later fs (checkLogFileExist config num fs).2 ∧
      ((checkLogFileExist config num fs).1 = 0 →
        ∀ e ∈ fs.entries.entries, fileId config e ≠ num) := by
  obtain ⟨hopen, _⟩ := opendir_spec fs config.dir
  unfold checkLogFileExist
  dsimp only
  split
  next => exact ⟨hopen, fun h => by unfold EIO at h; omega⟩
  next =>
    rw [hopen.entries]
    obtain ⟨hfind, hnone⟩ := findLogFile_spec num fs.entries.entries (fs.opendir config.dir).2
    exact ⟨(hopen.trans hfind).trans (call_spec _).1, hnone⟩

theorem getLogFileId_le (name : FileName) (entry : DirEntry) :
    getLogFileId config name entry ≤ MAX_FILE_NUMERAL := by
  unfold getLogFileId
  cases entry with
  | dir =>
    dsimp only
    unfold MAX_FILE_NUMERAL
    omega
  | file content =>
    dsimp only
    split
    · unfold MAX_FILE_NUMERAL
      omega
    · split
      · unfold MAX_FILE_NUMERAL
        omega
      · split
        next h => exact h.1
        next =>
          unfold MAX_FILE_NUMERAL
          omega

end Checking

/-- How many files of the directory have a log file's name. -/
def logFiles (config : LogConfig) (entries : LogDir) : Nat :=
  (entries.entries.filter fun e => 0 ≤ fileId config e).length

/-- How many bytes these files hold. -/
def logBytes (config : LogConfig) (entries : LogDir) : Nat :=
  ((entries.entries.filter fun e => 0 ≤ fileId config e).map fun e =>
    match e.2 with
    | .file content => content.length
    | .dir => 0).sum

/-- The longest a log file grows: a record that is longer than the files are meant to be begins a
file of its own. -/
def LogConfig.longest (config : LogConfig) : Nat := max config.fileSize MAX_FLASH_WRITE_SIZE

/-- No directory has a log file's name, and no log file has grown too long. -/
structure Tidy (config : LogConfig) (entries : LogDir) : Prop where
  noDirs : ∀ num, 0 ≤ num → num ≤ MAX_FILE_NUMERAL →
    entries.lookup (logFileName config num) ≠ some .dir
  sizes : ∀ name content, entries.lookup name = some (.file content) →
    0 ≤ getLogFileId config name (.file content) → content.length ≤ config.longest

section Counting

variable {config : LogConfig} {entries : LogDir} {name : FileName}

/-- A name of the directory stands for one entry, and erasing it leaves the others. -/
theorem exists_split (h : name ∈ entries) :
    ∃ entry before after, entries.lookup name = some entry ∧
      entries.entries = before ++ ⟨name, entry⟩ :: after ∧
      (entries.erase name).entries = before ++ after := by
  obtain ⟨entry, before, after, _, hsplit, herase⟩ := List.exists_of_kerase (AList.mem_keys.mpr h)
  refine ⟨entry, before, after, ?_, hsplit, herase⟩
  apply AList.mem_lookup_iff.mpr
  rw [hsplit]
  exact List.mem_append_right _ List.mem_cons_self

theorem erase_of_notMem (h : name ∉ entries) : entries.erase name = entries := by
  apply AList.ext
  exact List.kerase_of_notMem_keys h

theorem logFiles_erase_le (entries : LogDir) (name : FileName) :
    logFiles config (entries.erase name) ≤ logFiles config entries := by
  by_cases h : name ∈ entries
  · obtain ⟨entry, before, after, _, hsplit, herase⟩ := exists_split h
    unfold logFiles
    rw [hsplit, herase, List.filter_append, List.filter_append, List.length_append,
      List.length_append, List.filter_cons]
    split
    · rw [List.length_cons]
      omega
    · exact le_refl _
  · rw [erase_of_notMem h]

theorem logFiles_erase (h : name ∈ entries)
    (hlog : ∀ entry, entries.lookup name = some entry → 0 ≤ getLogFileId config name entry) :
    logFiles config (entries.erase name) + 1 = logFiles config entries := by
  obtain ⟨entry, before, after, hlookup, hsplit, herase⟩ := exists_split h
  have hid : 0 ≤ fileId config ⟨name, entry⟩ := hlog entry hlookup
  unfold logFiles
  rw [hsplit, herase, List.filter_append, List.filter_append, List.length_append,
    List.length_append, List.filter_cons_of_pos (by simpa using hid), List.length_cons]
  omega

theorem logFiles_insert (entry : DirEntry) (hlog : 0 ≤ getLogFileId config name entry) :
    logFiles config (entries.insert name entry) = logFiles config (entries.erase name) + 1 := by
  have hid : 0 ≤ fileId config ⟨name, entry⟩ := hlog
  unfold logFiles
  rw [AList.entries_insert, List.filter_cons_of_pos (by simpa using hid), List.length_cons]
  rfl

theorem logBytes_le (tidy : Tidy config entries) :
    logBytes config entries ≤ logFiles config entries * config.longest := by
  have hsum : logBytes config entries ≤ logFiles config entries • config.longest := by
    unfold logBytes logFiles
    rw [← @List.length_map _ _ (entries.entries.filter fun e => 0 ≤ fileId config e)]
    apply List.sum_le_card_nsmul
    intro size hsize
    obtain ⟨⟨name, entry⟩, hmem, rfl⟩ := List.mem_map.mp hsize
    obtain ⟨hentry, hid⟩ := List.mem_filter.mp hmem
    cases entry with
    | dir => exact Nat.zero_le _
    | file content =>
      apply tidy.sizes name content (AList.mem_lookup_iff.mpr hentry)
      exact of_decide_eq_true hid
  simpa using hsum

theorem Tidy.erase (tidy : Tidy config entries) (name : FileName) :
    Tidy config (entries.erase name) := by
  have hlookup : ∀ other entry, (entries.erase name).lookup other = some entry →
      entries.lookup other = some entry := by
    intro other entry h
    by_cases heq : other = name
    · rw [heq, AList.lookup_erase] at h
      cases h
    · rwa [AList.lookup_erase_ne heq] at h
  refine ⟨?_, ?_⟩
  · intro num hlo hhi hdir
    exact tidy.noDirs num hlo hhi (hlookup _ _ hdir)
  · intro other content h hid
    exact tidy.sizes other content (hlookup _ _ h) hid

theorem Tidy.insert (tidy : Tidy config entries) (name : FileName) {content : List (BitVec 8)}
    (hsize : content.length ≤ config.longest) :
    Tidy config (entries.insert name (.file content)) := by
  refine ⟨?_, ?_⟩
  · intro num hlo hhi hdir
    by_cases heq : logFileName config num = name
    · rw [heq, AList.lookup_insert] at hdir
      cases hdir
    · rw [AList.lookup_insert_ne heq] at hdir
      exact tidy.noDirs num hlo hhi hdir
  · intro other content' h hid
    by_cases heq : other = name
    · rw [heq, AList.lookup_insert] at h
      cases h
      exact hsize
    · rw [AList.lookup_insert_ne heq] at h
      exact tidy.sizes other content' h hid

/-- A name of the log stands for a file of the log. -/
theorem Tidy.numbered (tidy : Tidy config entries) {num : Int} (hlo : 0 ≤ num)
    (hhi : num ≤ MAX_FILE_NUMERAL) {entry : DirEntry}
    (h : entries.lookup (logFileName config num) = some entry) :
    getLogFileId config (logFileName config num) entry = num := by
  cases entry with
  | dir => exact absurd h (tidy.noDirs num hlo hhi)
  | file content => exact getLogFileId_logFileName hlo hhi content

end Counting

/-- What holds of the backend and the directory whatever has failed. -/
structure Ledger (config : LogConfig) (b : LogBackend) : Prop where
  tidy : Tidy config b.fs.entries
  few : logFiles config b.fs.entries ≤ config.filesLimit
  whole : b.fs.Whole

/-- The backend counts at least the files there are, and knows where to look for the oldest. -/
structure Counted (config : LogConfig) (b : LogBackend) : Prop extends Ledger config b where
  counted : logFiles config b.fs.entries ≤ b.fileCtr
  oldest_nonneg : 0 ≤ b.oldest
  oldest_le : b.oldest ≤ MAX_FILE_NUMERAL

/-- Only files of the log are touched. -/
structure Within (config : LogConfig) (b b' : LogBackend) : Prop where
  foreign : SameForeign config b.fs.entries b'.fs.entries
  outcomes : b'.fs.outcomes <:+ b.fs.outcomes
  state : b'.backendState = b.backendState

theorem Within.refl {config : LogConfig} (b : LogBackend) : Within config b b :=
  ⟨SameForeign.refl _, List.suffix_refl _, rfl⟩

theorem Within.trans {config : LogConfig} {a b c : LogBackend} (hab : Within config a b)
    (hbc : Within config b c) : Within config a c :=
  ⟨hab.foreign.trans hbc.foreign, hbc.outcomes.trans hab.outcomes, hbc.state.trans hab.state⟩

section Failing

variable {config : LogConfig} {b b' : LogBackend} {rc : Int}

theorem nextNumeral_nonneg {num : Int} (h : 0 ≤ num) : 0 ≤ nextNumeral num := by
  unfold nextNumeral
  split <;> omega

theorem nextNumeral_le (num : Int) : nextNumeral num ≤ MAX_FILE_NUMERAL := by
  unfold nextNumeral MAX_FILE_NUMERAL
  split <;> omega

theorem Ledger.later (h : Ledger config b) {fs : LogFs} (later : Later b.fs fs)
    (hentries : b'.fs = fs) : Ledger config b' := by
  refine ⟨?_, ?_, ?_⟩
  · rw [hentries, later.entries]
    exact h.tidy
  · rw [hentries, later.entries]
    exact h.few
  · rw [hentries]
    exact later.whole h.whole

/-- The search for the oldest file keeps the account, whether it finds one or fails. -/
theorem delOldestFrom_counted (turns : Nat) (h : Counted config b)
    (run : delOldestFrom config turns b = some (rc, b')) :
    Counted config b' ∧ Within config b b' ∧ rc ≤ 0 ∧ (rc = 0 → b'.fileCtr + 1 = b.fileCtr) := by
  induction turns generalizing b with
  | zero => cases run
  | succ turns ih =>
    have hnonneg := nextNumeral_nonneg h.oldest_nonneg
    have hle := nextNumeral_le b.oldest
    obtain ⟨fs, hlater, hcases⟩ := unlink_spec b.fs (logFileName config b.oldest)
    rw [delOldestFrom] at run
    rcases hcases with ⟨hunlink, hmem⟩ | ⟨hunlink, hmissing⟩ | ⟨code, hunlink, hneg, hother⟩
    · -- the file is removed
      rw [hunlink] at run
      dsimp only at run
      rw [if_pos (Or.inl rfl), if_pos rfl] at run
      obtain ⟨rfl, rfl⟩ := Prod.mk.inj (Option.some.inj run)
      have hcount := logFiles_erase hmem fun entry hentry =>
        (h.tidy.numbered h.oldest_nonneg h.oldest_le hentry).symm ▸ h.oldest_nonneg
      have hfew := h.few
      have hcounted := h.counted
      refine ⟨⟨⟨?_, ?_, hlater.whole h.whole⟩, ?_, hnonneg, hle⟩, ⟨?_, hlater.outcomes, rfl⟩,
        le_refl _, ?_⟩
      · rw [hlater.entries]
        exact h.tidy.erase _
      · change (logFiles config (fs.entries.erase _) : Int) ≤ config.filesLimit
        rw [hlater.entries]
        omega
      · change (logFiles config (fs.entries.erase _) : Int) ≤ b.fileCtr - 1
        rw [hlater.entries]
        omega
      · rw [hlater.entries]
        exact sameForeign_erase h.oldest_nonneg h.oldest_le _
      · intro _
        change b.fileCtr - 1 + 1 = b.fileCtr
        omega
    · rw [hunlink] at run
      dsimp only at run
      rw [if_pos (Or.inr rfl), if_neg (by unfold ENOENT; omega)] at run
      have hledger : Ledger config { b with fs, oldest := nextNumeral b.oldest } :=
        h.toLedger.later hlater rfl
      have hnext : Counted config { b with fs, oldest := nextNumeral b.oldest } := by
        refine ⟨hledger, ?_, hnonneg, hle⟩
        rw [hlater.entries]
        exact h.counted
      obtain ⟨hcounted, hwithin, hrc, hzero⟩ := ih hnext run
      refine ⟨hcounted, ⟨?_, hwithin.outcomes.trans hlater.outcomes, hwithin.state⟩, hrc, hzero⟩
      have hforeign := hwithin.foreign
      rwa [hlater.entries] at hforeign
    · rw [hunlink] at run
      dsimp only at run
      rw [if_neg (fun hor => by rcases hor with h | h <;> omega)] at run
      obtain ⟨rfl, rfl⟩ := Prod.mk.inj (Option.some.inj run)
      refine ⟨⟨h.toLedger.later hlater rfl, ?_, h.oldest_nonneg, h.oldest_le⟩,
        ⟨?_, hlater.outcomes, rfl⟩, hneg.le, fun h => by omega⟩
      · rw [hlater.entries]
        exact h.counted
      · rw [hlater.entries]
        exact SameForeign.refl _

theorem Counted.later (h : Counted config b) {fs : LogFs} (later : Later b.fs fs) :
    Counted config { b with fs } ∧ Within config b { b with fs } := by
  refine ⟨⟨h.toLedger.later later rfl, ?_, h.oldest_nonneg, h.oldest_le⟩,
    ⟨?_, later.outcomes, rfl⟩⟩
  · rw [later.entries]
    exact h.counted
  · rw [later.entries]
    exact SameForeign.refl _

/-- Where the loop ends without an error there is room for another file. -/
theorem makeRoomFrom_counted (turns : Nat) (hturns : b.fileCtr + 1 - config.filesLimit ≤ turns)
    (h : Counted config b) (run : makeRoomFrom config turns b = some (rc, b')) :
    Counted config b' ∧ Within config b b' ∧ (0 ≤ rc → b'.fileCtr < config.filesLimit) := by
  induction turns generalizing b with
  | zero =>
    obtain ⟨rfl, rfl⟩ := Prod.mk.inj (Option.some.inj run)
    exact ⟨h, Within.refl b, fun _ => by omega⟩
  | succ turns ih =>
    rw [makeRoomFrom] at run
    split at run
    next hfull =>
      split at run
      next =>
        split at run
        next => cases run
        next code b₁ hdel =>
          obtain ⟨hcounted, hwithin, hcode, htaken⟩ := delOldestFrom_counted _ h hdel
          split at run
          next hneg =>
            obtain ⟨rfl, rfl⟩ := Prod.mk.inj (Option.some.inj run)
            exact ⟨hcounted, hwithin, fun hzero => by omega⟩
          next hdone =>
            obtain ⟨hlater, _⟩ := call_spec b₁.fs
            obtain ⟨hcounted', hwithin'⟩ := hcounted.later hlater
            dsimp only at run
            split at run
            next hneg =>
              obtain ⟨rfl, rfl⟩ := Prod.mk.inj (Option.some.inj run)
              exact ⟨hcounted', hwithin.trans hwithin', fun hzero => by omega⟩
            next =>
              have hctr := htaken (by omega)
              obtain ⟨hcounted'', hwithin'', hroom⟩ := ih (by dsimp only; omega) hcounted' run
              exact ⟨hcounted'', (hwithin.trans hwithin').trans hwithin'', hroom⟩
      next =>
        obtain ⟨rfl, rfl⟩ := Prod.mk.inj (Option.some.inj run)
        exact ⟨h, Within.refl b, fun hzero => by unfold ENOSPC at hzero; omega⟩
    next hbelow =>
      obtain ⟨rfl, rfl⟩ := Prod.mk.inj (Option.some.inj run)
      exact ⟨h, Within.refl b, fun _ => by omega⟩

/-- The file a backend that is up writes to, unless somebody has removed it. -/
structure Writing (config : LogConfig) (b : LogBackend) : Prop extends Counted config b where
  newest_nonneg : 0 ≤ b.newest
  newest_le : b.newest ≤ MAX_FILE_NUMERAL
  limit : b.fileCtr ≤ config.filesLimit
  file : b.fs.file.name = logFileName config b.newest
  lost : logFileName config b.newest ∉ b.fs.entries →
    logFiles config b.fs.entries + 1 ≤ b.fileCtr

/-- A file is opened where there is room for it, whether its name is new or not. -/
theorem openFile_writing {num : Int} (hlo : 0 ≤ num) (hhi : num ≤ MAX_FILE_NUMERAL)
    (h : Counted config b) (room : b.fileCtr < config.filesLimit) {fs : LogFs}
    (run : b.fs.openFile (logFileName config num) = (rc, fs)) :
    Ledger config { b with fs } ∧ SameForeign config b.fs.entries fs.entries ∧
      fs.outcomes <:+ b.fs.outcomes ∧
      (0 ≤ rc → Writing config { b with fs, fileCtr := b.fileCtr + 1, newest := num } ∧
        fs.file.pos = 0) := by
  have hcount := h.counted
  obtain ⟨fs₁, hlater, hcases⟩ := openFile_spec b.fs (logFileName config num)
  have hentries := hlater.entries
  have hwhole := hlater.whole h.whole
  rcases hcases with ⟨code, hfail, hneg⟩ | ⟨hold, content, hfile⟩ | ⟨hnew, hmissing⟩
  · obtain ⟨rfl, rfl⟩ := Prod.mk.inj (run.symm.trans hfail)
    refine ⟨h.toLedger.later hlater rfl, ?_, hlater.outcomes, fun hzero => by omega⟩
    rw [hentries]
    exact SameForeign.refl _
  · -- a file of this number is there already: it is written over
    obtain ⟨rfl, rfl⟩ := Prod.mk.inj (run.symm.trans hold)
    have hmem : logFileName config num ∈ b.fs.entries := by
      apply AList.lookup_isSome.mp
      rw [hfile]
      rfl
    have hledger : ∀ b' : LogBackend, b'.fs = { fs₁ with file := ⟨logFileName config num, 0⟩ } →
        Ledger config b' := by
      intro b' hb'
      refine ⟨?_, ?_, ?_⟩
      · rw [hb', hentries]
        exact h.tidy
      · rw [hb', hentries]
        exact h.few
      · rw [hb']
        exact hwhole
    refine ⟨hledger _ rfl, ?_, hlater.outcomes, fun _ => ⟨?_, rfl⟩⟩
    · rw [hentries]
      exact SameForeign.refl _
    · refine ⟨⟨hledger _ rfl, ?_, h.oldest_nonneg, h.oldest_le⟩, hlo, hhi, ?_, rfl, ?_⟩
      · change (logFiles config fs₁.entries : Int) ≤ b.fileCtr + 1
        rw [hentries]
        omega
      · change b.fileCtr + 1 ≤ config.filesLimit
        omega
      · intro hlost
        change logFileName config num ∉ fs₁.entries at hlost
        rw [hentries] at hlost
        exact absurd hmem hlost
  · obtain ⟨rfl, rfl⟩ := Prod.mk.inj (run.symm.trans hnew)
    have hid : 0 ≤ getLogFileId config (logFileName config num) (.file []) := by
      rw [getLogFileId_logFileName hlo hhi]
      exact hlo
    have hplus : logFiles config (fs₁.entries.insert (logFileName config num) (.file [])) =
        logFiles config b.fs.entries + 1 := by
      rw [hentries, logFiles_insert _ hid, erase_of_notMem hmissing]
    have htidy : Tidy config (fs₁.entries.insert (logFileName config num) (.file [])) := by
      rw [hentries]
      exact h.tidy.insert _ (Nat.zero_le _)
    have hledger : ∀ b' : LogBackend, b'.fs = { fs₁ with
        entries := fs₁.entries.insert (logFileName config num) (.file [])
        file := ⟨logFileName config num, 0⟩ } → Ledger config b' := by
      intro b' hb'
      refine ⟨?_, ?_, ?_⟩
      · rw [hb']
        exact htidy
      · rw [hb']
        change (logFiles config (fs₁.entries.insert _ _) : Int) ≤ config.filesLimit
        rw [hplus]
        omega
      · rw [hb']
        exact hwhole
    refine ⟨hledger _ rfl, ?_, hlater.outcomes, fun _ => ⟨?_, rfl⟩⟩
    · rw [hentries]
      exact sameForeign_insert hlo hhi _ _
    · refine ⟨⟨hledger _ rfl, ?_, h.oldest_nonneg, h.oldest_le⟩, hlo, hhi, ?_, rfl, ?_⟩
      · change (logFiles config (fs₁.entries.insert _ _) : Int) ≤ b.fileCtr + 1
        rw [hplus]
        omega
      · change b.fileCtr + 1 ≤ config.filesLimit
        omega
      · intro hlost
        apply absurd _ hlost
        change logFileName config num ∈ fs₁.entries.insert _ _
        exact (AList.mem_insert _).mpr (Or.inl rfl)

theorem openNumbered_writing {num : Int} (hlo : 0 ≤ num) (hhi : num ≤ MAX_FILE_NUMERAL)
    (h : Counted config b) (run : openNumbered config num b = some (rc, b')) :
    Ledger config b' ∧ Within config b b' ∧
      (0 ≤ rc → Writing config b' ∧ b'.fs.file.pos = 0) := by
  obtain ⟨hlater, _⟩ := call_spec b.fs
  obtain ⟨hstat, hwithin₀⟩ := h.later hlater
  unfold openNumbered at run
  dsimp only at run
  split at run
  next => cases run
  next code b₁ hroom =>
    obtain ⟨hcounted, hwithin₁, hbelow⟩ := makeRoomFrom_counted _
      (by dsimp only; omega) hstat hroom
    have hwithin := hwithin₀.trans hwithin₁
    split at run
    next hneg =>
      obtain ⟨rfl, rfl⟩ := Prod.mk.inj (Option.some.inj run)
      exact ⟨hcounted.toLedger, hwithin, fun hzero => by omega⟩
    next hdone =>
      cases hopen : b₁.fs.openFile (logFileName config num) with
      | mk code fs =>
        obtain ⟨hledger, hforeign, houtcomes, hwriting⟩ :=
          openFile_writing hlo hhi hcounted (hbelow (by omega)) hopen
        rw [hopen] at run
        dsimp only at run
        split at run
        next hneg =>
          obtain ⟨rfl, rfl⟩ := Prod.mk.inj (Option.some.inj run)
          exact ⟨hledger, hwithin.trans ⟨hforeign, houtcomes, rfl⟩, fun hzero => by omega⟩
        next hdone =>
          obtain ⟨rfl, rfl⟩ := Prod.mk.inj (Option.some.inj run)
          obtain ⟨hwriting, hpos⟩ := hwriting (by omega)
          exact ⟨hwriting.toLedger, hwithin.trans ⟨hforeign, houtcomes, rfl⟩,
            fun _ => ⟨hwriting, hpos⟩⟩

end Failing

/-- The numbers of the log files do not lie further apart than those of a log that has not gone
round. -/
def NotRound (config : LogConfig) (entries : LogDir) : Prop :=
  ∀ e ∈ entries.entries, ∀ e' ∈ entries.entries, 0 ≤ fileId config e → 0 ≤ fileId config e' →
    fileId config e - fileId config e' ≤ 2 * config.filesLimit

section Searching

variable {config : LogConfig} {b b' : LogBackend} {rc : Int}

/-- What the first loop gathers from a part of the directory. -/
theorem scan_range (read : List (Sigma fun _ : FileName => DirEntry)) (scan : LogScan)
    (hscan : scan = read.foldl (fun scan e => scanTurn config scan e.1 e.2)
      ⟨0, MAX_FILE_NUMERAL, 0⟩) :
    scan.fileCtr = (read.filter fun e => 0 ≤ fileId config e).length ∧
      (0 ≤ scan.max ∧ scan.max ≤ MAX_FILE_NUMERAL) ∧
      (0 ≤ scan.min ∧ scan.min ≤ MAX_FILE_NUMERAL) ∧
      (0 < scan.max - scan.min → ∃ e ∈ read, ∃ e' ∈ read, 0 ≤ fileId config e ∧
        0 ≤ fileId config e' ∧ scan.max - scan.min = fileId config e - fileId config e') := by
  have hctr := scan_fileCtr config ⟨0, MAX_FILE_NUMERAL, 0⟩ read
  have hmax := foldl_best (fileId config) (fun e => 0 ≤ fileId config e) 0 read
  have hmin := foldl_worst (fileId config) (fun e => 0 ≤ fileId config e) MAX_FILE_NUMERAL read
  have hmaxEq := scan_max config ⟨0, MAX_FILE_NUMERAL, 0⟩ read
  have hminEq := scan_min config ⟨0, MAX_FILE_NUMERAL, 0⟩ read
  rw [← hscan] at hctr hmaxEq hminEq
  dsimp only at hctr hmaxEq hminEq
  rw [← hmaxEq] at hmax
  rw [← hminEq] at hmin
  obtain ⟨hmaxAll, hmaxStart, hmaxFrom⟩ := hmax
  obtain ⟨hminAll, hminStart, hminFrom⟩ := hmin
  have hle : ∀ e, fileId config e ≤ MAX_FILE_NUMERAL := fun e => getLogFileId_le _ _
  refine ⟨by omega, ⟨hmaxStart, ?_⟩, ⟨?_, hminStart⟩, ?_⟩
  · rcases hmaxFrom with hzero | ⟨e, _, _, heq⟩
    · rw [hzero]
      decide
    · rw [heq]
      exact hle e
  · rcases hminFrom with hlast | ⟨e, _, hid, heq⟩
    · rw [hlast]
      decide
    · rw [heq]
      exact hid
  · intro hapart
    rcases hmaxFrom with hzero | ⟨e, he, hid, heq⟩
    · rcases hminFrom with hlast | ⟨e', he', hid', heq'⟩
      · have : (0 : Int) ≤ MAX_FILE_NUMERAL := by decide
        omega
      · omega
    · rcases hminFrom with hlast | ⟨e', he', hid', heq'⟩
      · have := hle e
        omega
      · exact ⟨e, he, e', he', hid, hid', by omega⟩

/-- The second loop leaves numbers of the log, whatever part of the directory it reads. -/
theorem wrapped_range (read : List (Sigma fun _ : FileName => DirEntry)) {min max : Int}
    (hmin : 0 ≤ min) (hmax : max ≤ MAX_FILE_NUMERAL) (hlimit : 0 < config.filesLimit)
    (hapart : max - min > 2 * config.filesLimit) (ends : Int × Int)
    (hends : ends = read.foldl (fun ends e => wrappedTurn config min max ends e.1 e.2)
      (min, max)) :
    (0 ≤ ends.1 ∧ ends.1 ≤ MAX_FILE_NUMERAL) ∧ (0 ≤ ends.2 ∧ ends.2 ≤ MAX_FILE_NUMERAL) := by
  have hbest := foldl_best (fileId config) (fun e => fileId config e < min + config.filesLimit)
    min read
  have hworst := foldl_worst (fileId config) (fun e => fileId config e > max - config.filesLimit)
    max read
  have hnewest := wrapped_newest config min max (min, max) read
  have holdest := wrapped_oldest config min max (min, max) read
  rw [← hends] at hnewest holdest
  dsimp only at hnewest holdest
  rw [← hnewest] at hbest
  rw [← holdest] at hworst
  obtain ⟨_, hbestStart, hbestFrom⟩ := hbest
  obtain ⟨_, hworstStart, hworstFrom⟩ := hworst
  refine ⟨⟨by omega, ?_⟩, ⟨?_, by omega⟩⟩
  · rcases hbestFrom with hstart | ⟨e, _, _, heq⟩
    · omega
    · rw [heq]
      exact getLogFileId_le _ _
  · rcases hworstFrom with hstart | ⟨e, _, hid, heq⟩
    · omega
    · omega

/-- The first loop with what opens the directory for it: it has read the whole directory, unless
it ends with an error. -/
theorem firstScan_spec (b : LogBackend) (hctr : b.fileCtr = 0) :
    ∃ read, read <+: b.fs.entries.entries ∧ ∃ rc scan fs,
      (if 0 ≤ (b.fs.opendir config.dir).1 then
          readEntries (scanTurn config) (b.fs.opendir config.dir).2.entries.entries
            ⟨0, MAX_FILE_NUMERAL, b.fileCtr⟩ (b.fs.opendir config.dir).2
        else ((b.fs.opendir config.dir).1, ⟨0, MAX_FILE_NUMERAL, b.fileCtr⟩,
          (b.fs.opendir config.dir).2)) = (rc, scan, fs) ∧
      scan = read.foldl (fun scan e => scanTurn config scan e.1 e.2) ⟨0, MAX_FILE_NUMERAL, 0⟩ ∧
      Later b.fs fs ∧ rc ≤ 0 ∧ (rc = 0 → read = b.fs.entries.entries) ∧
      (b.fs.outcomes = [] → read = b.fs.entries.entries ∨ read = []) := by
  obtain ⟨hopen, hcode⟩ := opendir_spec b.fs config.dir
  rw [hctr, hopen.entries]
  split
  next hdone =>
    obtain ⟨read, hpre, hscan, hlater, hrc, hall⟩ := readEntries_spec (scanTurn config)
      b.fs.entries.entries ⟨0, MAX_FILE_NUMERAL, 0⟩ (b.fs.opendir config.dir).2
    refine ⟨read, hpre, _, _, _, rfl, hscan, hopen.trans hlater, hrc, hall, ?_⟩
    intro quiet
    have hquiet : (b.fs.opendir config.dir).2.outcomes = [] := by
      have := hopen.outcomes
      rw [quiet] at this
      exact List.suffix_nil.mp this
    left
    apply hall
    rw [readEntries_quiet _ _ _ _ hquiet]
  next hfailed =>
    exact ⟨[], List.nil_prefix, _, _, _, rfl, rfl, hopen, hcode, fun h => by omega,
      fun _ => Or.inr rfl⟩

/-- After a restart the count is right, unless an error has been met or the numbers have gone
round while one was. -/
theorem searchLastUsed_counted (h : Ledger config b) (hctr : b.fileCtr = 0)
    (hlimit : 0 < config.filesLimit)
    (hround : b.fs.outcomes = [] ∨ NotRound config b.fs.entries)
    (run : searchLastUsed config b = (rc, b')) :
    Ledger config b' ∧ Within config b b' ∧
      (0 ≤ rc → Counted config b' ∧ 0 ≤ b'.newest ∧ b'.newest ≤ MAX_FILE_NUMERAL) := by
  obtain ⟨read, hpre, code, scan, fs, hfirst, hscan, hlater, hcode, hall, hquiet⟩ :=
    @firstScan_spec config b hctr
  obtain ⟨hcount, hmax, hmin, hends⟩ := scan_range read scan hscan
  have hledger : ∀ b₁ : LogBackend, Later b.fs b₁.fs → Ledger config b₁ :=
    fun b₁ hlater₁ => h.later hlater₁ rfl
  have hwithin : ∀ b₁ : LogBackend, Later b.fs b₁.fs → b₁.backendState = b.backendState →
      Within config b b₁ := by
    intro b₁ hlater₁ hstate
    refine ⟨?_, hlater₁.outcomes, hstate⟩
    rw [hlater₁.entries]
    exact SameForeign.refl _
  have hcounted : ∀ b₁ : LogBackend, Later b.fs b₁.fs → read = b.fs.entries.entries →
      b₁.fileCtr = scan.fileCtr → 0 ≤ b₁.oldest → b₁.oldest ≤ MAX_FILE_NUMERAL →
      Counted config b₁ := by
    intro b₁ hlater₁ hread hctr₁ hlo hhi
    refine ⟨hledger b₁ hlater₁, ?_, hlo, hhi⟩
    rw [hctr₁, hcount, hread, hlater₁.entries]
    exact le_refl _
  unfold searchLastUsed at run
  dsimp only at run
  rw [hfirst] at run
  dsimp only at run
  split at run
  next hwrapped =>
    have hread : read = b.fs.entries.entries := by
      rcases hround with quiet | hround
      · rcases hquiet quiet with hread | hnil
        · exact hread
        · rw [hnil] at hcount
          rw [hcount] at hwrapped
          exact absurd hwrapped.1 (by simp)
      · obtain ⟨e, he, e', he', hid, hid', heq⟩ := hends (by omega)
        have := hround e (hpre.subset he) e' (hpre.subset he') hid hid'
        omega
    obtain ⟨hcall, _⟩ := call_spec fs
    obtain ⟨hopen, hopened⟩ := opendir_spec fs.call.2 config.dir
    have hreopen := (hlater.trans hcall).trans hopen
    split at run
    next hzero =>
      obtain ⟨read', _, hends', hagain, hrc, _⟩ := readEntries_spec
        (wrappedTurn config scan.min scan.max)
        (fs.call.2.opendir config.dir).2.entries.entries (scan.min, scan.max)
        (fs.call.2.opendir config.dir).2
      obtain ⟨hnewest, holdest⟩ := wrapped_range read' hmin.1 hmax.2 hlimit hwrapped.2 _ hends'
      have hclosed := (hreopen.trans hagain).trans (call_spec _).1
      obtain ⟨rfl, rfl⟩ := Prod.mk.inj run
      exact ⟨hledger _ hclosed, hwithin _ hclosed rfl, fun _ =>
        ⟨hcounted _ hclosed hread rfl holdest.1 holdest.2, hnewest⟩⟩
    next hneg =>
      obtain ⟨rfl, rfl⟩ := Prod.mk.inj run
      have hclosed := hreopen.trans (call_spec (fs.call.2.opendir config.dir).2).1
      exact ⟨hledger _ hclosed, hwithin _ hclosed rfl, fun hzero => by omega⟩
  next =>
    obtain ⟨rfl, rfl⟩ := Prod.mk.inj run
    have hclosed := hlater.trans (call_spec fs).1
    exact ⟨hledger _ hclosed, hwithin _ hclosed rfl, fun hzero =>
      ⟨hcounted _ hclosed (hall (by omega)) rfl hmin.1 hmin.2, hmax⟩⟩

end Searching

end MyMouse
