import MyMouse.LogBackend
import MyMouse.Rotation
import Mathlib.Data.List.Perm.Basic
import Mathlib.Data.List.Nodup

namespace MyMouse

open Rotation

variable {config : LogConfig}

/-- The oldest logs make room for new ones, and so few that numbers which have gone round are told
from those which have not. -/
structure LogConfig.Sound (config : LogConfig) : Prop where
  overwrite : config.overwrite = true
  someFile : 0 < config.filesLimit
  fewFiles : 2 * config.filesLimit < MAX_FILE_NUMERAL

theorem LogConfig.Sound.filesLimit_lt (sound : config.Sound) : config.filesLimit < 5000 := by
  have := sound.fewFiles
  unfold MAX_FILE_NUMERAL at this
  omega

def LogConfig.Sound.limits (sound : config.Sound) : Limits where
  segments := config.filesLimit.toNat
  size := config.fileSize
  pos := by
    have := sound.someFile
    omega

theorem digitChar_digit : ∀ d : Nat, d < 10 → (Nat.digitChar d).isDigit = true ∧
    (Nat.digitChar d).toNat - 48 = d ∧ isSpace (Nat.digitChar d) = false ∧
    Nat.digitChar d ≠ '-' ∧ Nat.digitChar d ≠ '+' := by
  decide

theorem atoi_formatNumeral {num : Int} (hlo : 0 ≤ num) (hhi : num ≤ MAX_FILE_NUMERAL) :
    atoi (formatNumeral num) = num := by
  have digit : ∀ n : Int, ∃ d : Nat, d < 10 ∧ (n % 10).toNat = d ∧ n % 10 = d := by
    intro n
    exact ⟨(n % 10).toNat, by omega, rfl, by omega⟩
  obtain ⟨d₁, hd₁, htd₁, he₁⟩ := digit (num / 1000)
  obtain ⟨d₂, hd₂, htd₂, he₂⟩ := digit (num / 100)
  obtain ⟨d₃, hd₃, htd₃, he₃⟩ := digit (num / 10)
  obtain ⟨d₄, hd₄, htd₄, he₄⟩ := digit num
  obtain ⟨hdigit₁, hval₁, hspace, hminus, hplus⟩ := digitChar_digit d₁ hd₁
  obtain ⟨hdigit₂, hval₂, _⟩ := digitChar_digit d₂ hd₂
  obtain ⟨hdigit₃, hval₃, _⟩ := digitChar_digit d₃ hd₃
  obtain ⟨hdigit₄, hval₄, _⟩ := digitChar_digit d₄ hd₄
  simp only [formatNumeral, List.map_cons, List.map_nil, htd₁, htd₂, htd₃, htd₄, atoi,
    List.dropWhile_cons, hspace, Bool.false_eq_true, if_false, hminus, hplus, atoiDigits, hdigit₁,
    hdigit₂, hdigit₃, hdigit₄, if_true, hval₁, hval₂, hval₃, hval₄]
  unfold MAX_FILE_NUMERAL at hhi
  omega

/-- The number of a log file is read back from its name. -/
theorem getLogFileId_logFileName {num : Int} (hlo : 0 ≤ num) (hhi : num ≤ MAX_FILE_NUMERAL)
    (content : List (BitVec 8)) :
    getLogFileId config (logFileName config num) (.file content) = num := by
  have hlength : (logFileName config num).length = config.filePrefix.length + FILE_NUMERAL_LEN := by
    simp [logFileName, formatNumeral, FILE_NUMERAL_LEN]
  have htake : (logFileName config num).take config.filePrefix.length = config.filePrefix := by
    simp [logFileName]
  have hdrop : (logFileName config num).drop config.filePrefix.length = formatNumeral num := by
    simp [logFileName]
  simp only [getLogFileId, hlength, htake, hdrop, ne_eq, not_true, if_false,
    atoi_formatNumeral hlo hhi]
  rw [if_pos ⟨hhi, hlo⟩]

theorem logFileName_injective {num other : Int} (hlo : 0 ≤ num) (hhi : num ≤ MAX_FILE_NUMERAL)
    (hlo' : 0 ≤ other) (hhi' : other ≤ MAX_FILE_NUMERAL)
    (h : logFileName config num = logFileName config other) : num = other := by
  have hid : getLogFileId config (logFileName config num) (.file []) = num :=
    getLogFileId_logFileName hlo hhi []
  rw [h, getLogFileId_logFileName hlo' hhi' []] at hid
  exact hid.symm

/-- The number of the `i`-th file of a log that begins with the number `first`. -/
def numeral (first : Int) (i : Nat) : Int := (first + i) % 10000

theorem numeral_nonneg (first : Int) (i : Nat) : 0 ≤ numeral first i := by
  unfold numeral
  omega

theorem numeral_le (first : Int) (i : Nat) : numeral first i ≤ MAX_FILE_NUMERAL := by
  unfold numeral MAX_FILE_NUMERAL
  omega

theorem numeral_zero {first : Int} (hlo : 0 ≤ first) (hhi : first ≤ MAX_FILE_NUMERAL) :
    numeral first 0 = first := by
  unfold numeral
  unfold MAX_FILE_NUMERAL at hhi
  omega

theorem numeral_add (first : Int) (i j : Nat) :
    numeral (numeral first i) j = numeral first (i + j) := by
  unfold numeral
  omega

theorem nextNumeral_numeral (first : Int) (i : Nat) :
    nextNumeral (numeral first i) = numeral first (i + 1) := by
  unfold nextNumeral numeral MAX_FILE_NUMERAL
  split <;> omega

theorem nextNumeral_first {first : Int} (hlo : 0 ≤ first) (hhi : first ≤ MAX_FILE_NUMERAL) :
    nextNumeral first = numeral first 1 := by
  have := nextNumeral_numeral first 0
  rwa [numeral_zero hlo hhi] at this

theorem numeral_injective {first : Int} {i j : Nat} (hi : i < 10000) (hj : j < 10000)
    (h : numeral first i = numeral first j) : i = j := by
  unfold numeral at h
  omega

theorem name_injective {first : Int} {i j : Nat} (hi : i < 10000) (hj : j < 10000)
    (h : logFileName config (numeral first i) = logFileName config (numeral first j)) : i = j :=
  numeral_injective hi hj (logFileName_injective (numeral_nonneg _ _) (numeral_le _ _)
    (numeral_nonneg _ _) (numeral_le _ _) h)

/-- The log files of the directory are the segments, numbered on from `first`. -/
structure HoldsFrom (config : LogConfig) (first : Int) (segments : List (List (BitVec 8)))
    (entries : LogDir) : Prop where
  files : ∀ i (h : i < segments.length),
    entries.lookup (logFileName config (numeral first i)) = some (.file segments[i])
  only : ∀ name entry, entries.lookup name = some entry → 0 ≤ getLogFileId config name entry →
    ∃ i < segments.length, name = logFileName config (numeral first i)
  noDirs : ∀ num, 0 ≤ num → num ≤ MAX_FILE_NUMERAL →
    entries.lookup (logFileName config num) ≠ some .dir

/-- What has no log file's name is the same in both directories. -/
def SameForeign (config : LogConfig) (entries entries' : LogDir) : Prop :=
  ∀ name, (∀ num, 0 ≤ num → num ≤ MAX_FILE_NUMERAL → name ≠ logFileName config num) →
    entries'.lookup name = entries.lookup name

theorem SameForeign.refl (entries : LogDir) : SameForeign config entries entries :=
  fun _ _ => rfl

theorem SameForeign.trans {a b c : LogDir} (hab : SameForeign config a b)
    (hbc : SameForeign config b c) : SameForeign config a c :=
  fun name hname => (hbc name hname).trans (hab name hname)

theorem sameForeign_insert {num : Int} (hlo : 0 ≤ num) (hhi : num ≤ MAX_FILE_NUMERAL)
    (entry : DirEntry) (entries : LogDir) :
    SameForeign config entries (entries.insert (logFileName config num) entry) :=
  fun _ hname => AList.lookup_insert_ne (hname num hlo hhi)

theorem sameForeign_erase {num : Int} (hlo : 0 ≤ num) (hhi : num ≤ MAX_FILE_NUMERAL)
    (entries : LogDir) : SameForeign config entries (entries.erase (logFileName config num)) :=
  fun _ hname => AList.lookup_erase_ne (hname num hlo hhi)

namespace HoldsFrom

variable {first : Int} {segments : List (List (BitVec 8))} {entries : LogDir}

theorem lookup_eq_none (h : HoldsFrom config first segments entries) {num : Int} (hlo : 0 ≤ num)
    (hhi : num ≤ MAX_FILE_NUMERAL) (hnot : ∀ i < segments.length, num ≠ numeral first i) :
    entries.lookup (logFileName config num) = none := by
  cases hlookup : entries.lookup (logFileName config num) with
  | none => rfl
  | some entry =>
    cases entry with
    | dir => exact absurd hlookup (h.noDirs num hlo hhi)
    | file content =>
      have hid : getLogFileId config (logFileName config num) (.file content) = num :=
        getLogFileId_logFileName hlo hhi content
      obtain ⟨i, hi, hname⟩ := h.only _ _ hlookup (by omega)
      have := logFileName_injective hlo hhi (numeral_nonneg _ _) (numeral_le _ _) hname
      exact absurd this (hnot i hi)

/-- Without any segment it does not matter where they would begin. -/
theorem nil_first (h : HoldsFrom config first [] entries) (first' : Int) :
    HoldsFrom config first' [] entries := by
  refine ⟨fun i hi => absurd hi (by simp), ?_, h.noDirs⟩
  intro name entry hlookup hid
  obtain ⟨i, hi, _⟩ := h.only name entry hlookup hid
  exact absurd hi (by simp)

theorem erase_first {segment : List (BitVec 8)}
    (h : HoldsFrom config first (segment :: segments) entries)
    (hlen : segments.length < 9999) :
    HoldsFrom config (numeral first 1) segments
      (entries.erase (logFileName config (numeral first 0))) := by
  have hname : ∀ i < segments.length, logFileName config (numeral (numeral first 1) i) ≠
      logFileName config (numeral first 0) := by
    intro i hi heq
    rw [numeral_add] at heq
    have := name_injective (by omega) (by omega) heq
    omega
  refine ⟨?_, ?_, ?_⟩
  · intro i hi
    have hfile := h.files (i + 1) (by rw [List.length_cons]; omega)
    rw [AList.lookup_erase_ne (hname i hi), numeral_add, Nat.add_comm 1 i, hfile]
    rfl
  · intro name entry hlookup hid
    by_cases heq : name = logFileName config (numeral first 0)
    · rw [heq, AList.lookup_erase] at hlookup
      cases hlookup
    · rw [AList.lookup_erase_ne heq] at hlookup
      obtain ⟨i, hi, rfl⟩ := h.only name entry hlookup hid
      cases i with
      | zero => exact absurd rfl heq
      | succ i =>
        rw [List.length_cons] at hi
        exact ⟨i, by omega, by rw [numeral_add, Nat.add_comm 1 i]⟩
  · intro num hlo hhi hdir
    by_cases heq : logFileName config num = logFileName config (numeral first 0)
    · rw [heq, AList.lookup_erase] at hdir
      cases hdir
    · rw [AList.lookup_erase_ne heq] at hdir
      exact h.noDirs num hlo hhi hdir

/-- A file is written at the end, whether it is a new one or the last one. -/
theorem insert_last (segment : List (BitVec 8)) (older : List (List (BitVec 8)))
    (h : HoldsFrom config first segments entries)
    (hsegments : segments = older ∨ ∃ last, segments = older ++ [last])
    (hlen : older.length < 10000) :
    HoldsFrom config first (older ++ [segment])
      (entries.insert (logFileName config (numeral first older.length)) (.file segment)) := by
  have hold : ∀ i (hi : i < older.length), ∃ hi' : i < segments.length, segments[i] = older[i] := by
    intro i hi
    rcases hsegments with rfl | ⟨last, rfl⟩
    · exact ⟨hi, rfl⟩
    · refine ⟨by rw [List.length_append]; omega, ?_⟩
      rw [List.getElem_append_left hi]
  have hcount : segments.length ≤ older.length + 1 := by
    rcases hsegments with rfl | ⟨last, rfl⟩ <;> simp
  refine ⟨?_, ?_, ?_⟩
  · intro i hi
    rw [List.length_append, List.length_singleton] at hi
    by_cases heq : i = older.length
    · subst heq
      rw [AList.lookup_insert, List.getElem_append_right (Nat.le_refl _)]
      simp
    · have hlt : i < older.length := by omega
      obtain ⟨hi', hsame⟩ := hold i hlt
      have hne : logFileName config (numeral first i) ≠
          logFileName config (numeral first older.length) := by
        intro hname
        have := name_injective (by omega) hlen hname
        omega
      rw [AList.lookup_insert_ne hne, h.files i hi', hsame, List.getElem_append_left hlt]
  · intro name entry hlookup hid
    by_cases heq : name = logFileName config (numeral first older.length)
    · exact ⟨older.length, by simp, heq⟩
    · rw [AList.lookup_insert_ne heq] at hlookup
      obtain ⟨i, hi, hname⟩ := h.only name entry hlookup hid
      refine ⟨i, ?_, hname⟩
      rw [List.length_append, List.length_singleton]
      omega
  · intro num hlo hhi hdir
    by_cases heq : logFileName config num = logFileName config (numeral first older.length)
    · rw [heq, AList.lookup_insert] at hdir
      cases hdir
    · rw [AList.lookup_insert_ne heq] at hdir
      exact h.noDirs num hlo hhi hdir

end HoldsFrom

namespace LogFs

variable {fs : LogFs}

theorem call_quiet (quiet : fs.outcomes = []) : fs.call = (0, fs) := by
  simp only [call, quiet]

theorem opendir_quiet (quiet : fs.outcomes = []) {path : List Char} (h : path ∈ fs.dirs) :
    fs.opendir path = (0, fs) := by
  simp [opendir, call_quiet quiet, h]

theorem unlink_quiet (quiet : fs.outcomes = []) (name : FileName) :
    fs.unlink name = if name ∈ fs.entries then
      (0, { fs with entries := fs.entries.erase name }) else (-ENOENT, fs) := by
  simp [unlink, call_quiet quiet]

theorem openFile_quiet (quiet : fs.outcomes = []) {name : FileName}
    (h : fs.entries.lookup name = none) :
    fs.openFile name =
      (0, { fs with entries := fs.entries.insert name (.file []), file := ⟨name, 0⟩ }) := by
  have hentry : fs.entry name = none := h
  simp [openFile, call_quiet quiet, hentry]

theorem write_quiet (quiet : fs.outcomes = []) (data : List (BitVec 8)) :
    fs.write data = ((data.length : Int), fs.store data) := by
  simp only [write, quiet]

theorem store_end {name : FileName} {content : List (BitVec 8)}
    (hfile : fs.file = ⟨name, content.length⟩)
    (hlookup : fs.entries.lookup name = some (.file content)) (data : List (BitVec 8)) :
    fs.store data = { fs with
      file := ⟨name, (content ++ data).length⟩
      entries := fs.entries.insert name (.file (content ++ data)) } := by
  have hentry : fs.entry name = some (.file content) := hlookup
  have hrest : content.drop (content.length + data.length) = [] :=
    List.drop_eq_nil_of_le (Nat.le_add_right _ _)
  simp [store, hfile, hentry, hrest]

end LogFs

/-- Where the search for the oldest file may begin. -/
def OldestAt (oldest first : Int) : Prop :=
  oldest = first ∨ oldest = MAX_FILE_NUMERAL ∧ first = 0

/-- The backend counts the files of a log that begins with the number `first`, and nothing fails. -/
structure Counts (config : LogConfig) (first : Int) (segments : List (List (BitVec 8)))
    (b : LogBackend) : Prop where
  quiet : b.fs.outcomes = []
  log : HoldsFrom config first segments b.fs.entries
  first_nonneg : 0 ≤ first
  first_le : first ≤ MAX_FILE_NUMERAL
  oldest : OldestAt b.oldest first
  fileCtr : b.fileCtr = segments.length

/-- Nothing but the numbered files and the account of them has changed. -/
structure Kept (config : LogConfig) (b b' : LogBackend) : Prop where
  foreign : SameForeign config b.fs.entries b'.fs.entries
  dirs : b'.fs.dirs = b.fs.dirs
  mounts : b'.fs.mounts = b.fs.mounts
  state : b'.backendState = b.backendState

theorem Kept.refl (b : LogBackend) : Kept config b b := ⟨SameForeign.refl _, rfl, rfl, rfl⟩

theorem Kept.trans {a b c : LogBackend} (hab : Kept config a b) (hbc : Kept config b c) :
    Kept config a c :=
  ⟨hab.foreign.trans hbc.foreign, hbc.dirs.trans hab.dirs, hbc.mounts.trans hab.mounts,
    hbc.state.trans hab.state⟩

section Rotating

variable {b : LogBackend} {first : Int} {segments : List (List (BitVec 8))}

/-- The file that the search for the oldest one comes to after `k` numbers is removed. -/
theorem delOldestFrom_found (quiet : b.fs.outcomes = []) (k turns : Nat) (hturns : k < turns)
    (hlo : 0 ≤ b.oldest) (hhi : b.oldest ≤ MAX_FILE_NUMERAL)
    (absent : ∀ j < k, logFileName config (numeral b.oldest j) ∉ b.fs.entries)
    (found : logFileName config (numeral b.oldest k) ∈ b.fs.entries) :
    delOldestFrom config turns b = some (0, { b with
      fs := { b.fs with
        entries := b.fs.entries.erase (logFileName config (numeral b.oldest k)) }
      oldest := numeral b.oldest (k + 1)
      fileCtr := b.fileCtr - 1 }) := by
  induction k generalizing b turns with
  | zero =>
    obtain ⟨turns, rfl⟩ := Nat.exists_eq_add_of_lt hturns
    have hnext := nextNumeral_first hlo hhi
    rw [numeral_zero hlo hhi] at found ⊢
    simp only [delOldestFrom, LogFs.unlink_quiet quiet, if_pos found, true_or, if_true, hnext]
  | succ k ih =>
    obtain ⟨turns, rfl⟩ := Nat.exists_eq_add_of_lt hturns
    have hnext := nextNumeral_first hlo hhi
    have hmissing : logFileName config b.oldest ∉ b.fs.entries := by
      have := absent 0 (by omega)
      rwa [numeral_zero hlo hhi] at this
    have hrest := @ih { b with oldest := numeral b.oldest 1 } quiet (k + 1 + turns) (by omega)
      (numeral_nonneg _ _) (numeral_le _ _)
      (fun j hj => by rw [numeral_add, Nat.add_comm 1]; exact absent (j + 1) (by omega))
      (by rw [numeral_add, Nat.add_comm 1]; exact found)
    rw [delOldestFrom]
    simp only [LogFs.unlink_quiet quiet, if_neg hmissing, hnext]
    rw [if_pos (Or.inr trivial), if_neg (by decide), hrest]
    simp only [numeral_add, Nat.add_comm 1]

theorem delOldestLog_first {segment : List (BitVec 8)}
    (h : Counts config first (segment :: segments) b) (hlen : segments.length < 9999) :
    ∃ b', delOldestLog config b = some (0, b') ∧ Counts config (numeral first 1) segments b' ∧
      Kept config b b' := by
  have hfirst := numeral_zero h.first_nonneg h.first_le
  have hmem : logFileName config first ∈ b.fs.entries := by
    have hfile := h.log.files 0 (by simp)
    rw [hfirst] at hfile
    exact AList.lookup_isSome.mp (by rw [hfile]; rfl)
  have hcounts : Counts config (numeral first 1) segments { b with
      fs := { b.fs with entries := b.fs.entries.erase (logFileName config first) }
      oldest := numeral first 1
      fileCtr := b.fileCtr - 1 } := by
    have hctr := h.fileCtr
    have hlog := h.log.erase_first hlen
    rw [hfirst] at hlog
    refine ⟨h.quiet, hlog, numeral_nonneg _ _, numeral_le _ _, Or.inl rfl, ?_⟩
    rw [List.length_cons] at hctr
    change b.fileCtr - 1 = _
    omega
  refine ⟨_, ?_, hcounts, ⟨sameForeign_erase h.first_nonneg h.first_le _, rfl, rfl, rfl⟩⟩
  rw [delOldestLog, h.quiet]
  rcases h.oldest with heq | ⟨hmax, hzero⟩
  · have hfound := delOldestFrom_found h.quiet 0 (0 + 9999 + 1) (by omega)
      (by rw [heq]; exact h.first_nonneg) (by rw [heq]; exact h.first_le)
      (fun j hj => absurd hj (Nat.not_lt_zero j)) (by rw [heq, hfirst]; exact hmem)
    rw [heq, hfirst] at hfound
    exact hfound
  · -- the search begins at the last number and goes round to the first
    have hround : numeral b.oldest 1 = first := by
      rw [hmax, hzero]
      decide
    have hstart : numeral b.oldest 0 = MAX_FILE_NUMERAL := by
      rw [hmax]
      decide
    have hnext : numeral b.oldest 2 = numeral first 1 := by
      rw [← hround, numeral_add]
    have habsent : ∀ j < 1, logFileName config (numeral b.oldest j) ∉ b.fs.entries := by
      intro j hj
      rw [show j = 0 by omega, hstart, ← AList.lookup_eq_none]
      apply h.log.lookup_eq_none (by decide) (Int.le_refl _)
      intro i hi hsame
      rw [List.length_cons] at hi
      rw [hzero] at hsame
      unfold numeral MAX_FILE_NUMERAL at hsame
      omega
    have hfound := delOldestFrom_found h.quiet 1 (0 + 9999 + 1) (by omega)
      (by rw [hmax]; decide) (Int.le_of_eq hmax) habsent (by rw [hround]; exact hmem)
    rw [hround, hnext] at hfound
    exact hfound

/-- The loop leaves as many of the latest files as the limit allows beside a new one. -/
theorem makeRoomFrom_counts (sound : config.Sound) (turns : Nat)
    (hturns : b.fileCtr + 1 - config.filesLimit ≤ turns) (h : Counts config first segments b)
    (hlen : segments.length ≤ 9999) :
    ∃ b', makeRoomFrom config turns b = some (0, b') ∧
      Counts config (numeral first (segments.length + 1 - config.filesLimit.toNat))
        (segments.drop (segments.length + 1 - config.filesLimit.toNat)) b' ∧
      Kept config b b' := by
  have hlimit := sound.someFile
  have hctr := h.fileCtr
  have hroom : ¬ b.fileCtr ≥ config.filesLimit →
      Counts config (numeral first (segments.length + 1 - config.filesLimit.toNat))
        (segments.drop (segments.length + 1 - config.filesLimit.toNat)) b := by
    intro hbelow
    have hzero : segments.length + 1 - config.filesLimit.toNat = 0 := by omega
    rwa [hzero, numeral_zero h.first_nonneg h.first_le]
  induction turns generalizing b first segments with
  | zero => exact ⟨b, rfl, hroom (by omega), Kept.refl b⟩
  | succ turns ih =>
    rw [makeRoomFrom]
    by_cases hfull : b.fileCtr ≥ config.filesLimit
    · rw [if_pos hfull, if_pos sound.overwrite]
      cases segments with
      | nil =>
        rw [List.length_nil] at hctr
        omega
      | cons segment rest =>
        rw [List.length_cons] at hctr hlen
        obtain ⟨b₁, hdel, hcounts₁, hkept₁⟩ := delOldestLog_first h (by omega)
        have hctr₁ := hcounts₁.fileCtr
        obtain ⟨b', hrun, hcounts', hkept'⟩ := ih (by omega) hcounts₁ (by omega) hctr₁ (by
          intro hbelow
          have hzero : rest.length + 1 - config.filesLimit.toNat = 0 := by omega
          rwa [hzero, numeral_zero hcounts₁.first_nonneg hcounts₁.first_le])
        have hdrop : (segment :: rest).length + 1 - config.filesLimit.toNat =
            (rest.length + 1 - config.filesLimit.toNat) + 1 := by
          rw [List.length_cons]
          omega
        refine ⟨b', ?_, ?_, hkept₁.trans hkept'⟩
        · rw [hdel]
          dsimp only
          rw [if_neg (by decide), LogFs.call_quiet hcounts₁.quiet]
          exact hrun
        · rw [hdrop, List.drop_succ_cons, Nat.add_comm _ 1, ← numeral_add]
          exact hcounts'
    · rw [if_neg hfull]
      exact ⟨b, rfl, hroom hfull, Kept.refl b⟩

/-- A backend that is up, writing `segment`. -/
structure Up (config : LogConfig) (b : LogBackend) (older : List (List (BitVec 8)))
    (segment : List (BitVec 8)) : Prop where
  state : b.backendState = .ok
  listed : config.dir ∈ b.fs.dirs
  limit : older.length + 1 ≤ config.filesLimit
  log : ∃ first, Counts config first (older ++ [segment]) b ∧
    b.newest = numeral first older.length ∧
    b.fs.file = ⟨logFileName config b.newest, segment.length⟩

theorem openNumbered_up (sound : config.Sound) (h : Counts config first segments b)
    (state : b.backendState = .ok) (listed : config.dir ∈ b.fs.dirs)
    (hlen : segments.length ≤ 9999) :
    ∃ b', openNumbered config (numeral first segments.length) b = some (0, b') ∧
      Up config b' (RotatingLog.makeRoom sound.limits segments) [] ∧ Kept config b b' := by
  have hlimit := sound.someFile
  have hlow := sound.filesLimit_lt
  rw [show RotatingLog.makeRoom sound.limits segments =
    segments.drop (segments.length + 1 - config.filesLimit.toNat) from rfl]
  obtain ⟨b₁, hroom, hcounts, hkept⟩ := makeRoomFrom_counts sound
    (b.fileCtr + 1 - config.filesLimit).toNat (by omega) h hlen
  have hkeptLength : (segments.drop (segments.length + 1 - config.filesLimit.toNat)).length = _ :=
    List.length_drop
  generalize hfirst' : numeral first (segments.length + 1 - config.filesLimit.toNat) = first'
    at hcounts
  generalize hrest : segments.drop (segments.length + 1 - config.filesLimit.toNat) = rest
    at hcounts hkeptLength ⊢
  have hnum : numeral first segments.length = numeral first' rest.length := by
    rw [← hfirst', numeral_add]
    congr 1
    omega
  have habsent : b₁.fs.entries.lookup (logFileName config (numeral first' rest.length)) = none := by
    apply hcounts.log.lookup_eq_none (numeral_nonneg _ _) (numeral_le _ _)
    intro i hi hsame
    have := numeral_injective (by omega) (by omega) hsame
    omega
  have hlast := hcounts.log.insert_last [] rest (Or.inl rfl) (by omega)
  refine ⟨{ b₁ with
    fs := { b₁.fs with
      entries := b₁.fs.entries.insert (logFileName config (numeral first' rest.length)) (.file [])
      file := ⟨logFileName config (numeral first' rest.length), 0⟩ }
    fileCtr := b₁.fileCtr + 1
    newest := numeral first' rest.length }, ?_, ?_, ?_⟩
  · rw [hnum, openNumbered, LogFs.call_quiet h.quiet]
    dsimp only
    rw [makeRoom, hroom]
    dsimp only
    rw [if_neg (by decide), LogFs.openFile_quiet hcounts.quiet habsent]
    rfl
  · refine ⟨hkept.state.trans state, by rw [← hkept.dirs] at listed; exact listed, by omega,
      first', ?_, rfl, rfl⟩
    refine ⟨hcounts.quiet, hlast, hcounts.first_nonneg, hcounts.first_le, hcounts.oldest, ?_⟩
    have := hcounts.fileCtr
    rw [List.length_append, List.length_singleton]
    change b₁.fileCtr + 1 = _
    omega
  · refine ⟨?_, hkept.dirs, hkept.mounts, hkept.state⟩
    exact hkept.foreign.trans (sameForeign_insert (numeral_nonneg _ _) (numeral_le _ _) _ _)

namespace Up

variable {older : List (List (BitVec 8))} {segment : List (BitVec 8)}

theorem quiet (h : Up config b older segment) : b.fs.outcomes = [] := by
  obtain ⟨_, hcounts, _⟩ := h.log
  exact hcounts.quiet

theorem store (h : Up config b older segment) (sound : config.Sound) (data : List (BitVec 8)) :
    Up config { b with fs := b.fs.store data } older (segment ++ data) ∧
      Kept config b { b with fs := b.fs.store data } := by
  obtain ⟨first, hcounts, hnewest, hfile⟩ := h.log
  have hlimit := h.limit
  have hlow := sound.filesLimit_lt
  have hlookup : b.fs.entries.lookup (logFileName config b.newest) = some (.file segment) := by
    have := hcounts.log.files older.length (by simp)
    rw [hnewest, this, List.getElem_append_right (Nat.le_refl _)]
    simp
  have hstore := LogFs.store_end hfile hlookup data
  have hlast := hcounts.log.insert_last (segment ++ data) older
    (Or.inr ⟨segment, rfl⟩) (by omega)
  rw [hstore]
  refine ⟨⟨h.state, h.listed, h.limit, first, ?_, hnewest, rfl⟩, ?_⟩
  · refine ⟨hcounts.quiet, ?_, hcounts.first_nonneg, hcounts.first_le, hcounts.oldest, ?_⟩
    · rw [hnewest]
      exact hlast
    · have hctr := hcounts.fileCtr
      rw [List.length_append, List.length_singleton] at hctr
      change b.fileCtr = _
      rw [hctr, List.length_append, List.length_singleton]
  · refine ⟨?_, rfl, rfl, rfl⟩
    rw [hnewest]
    exact sameForeign_insert (numeral_nonneg _ _) (numeral_le _ _) _ _

theorem allocate (h : Up config b older segment) (sound : config.Sound) :
    ∃ b', allocateNewFile config b = some (0, b') ∧
      Up config b' (RotatingLog.makeRoom sound.limits (older ++ [segment])) [] ∧
      Kept config b b' := by
  obtain ⟨first, hcounts, hnewest, _⟩ := h.log
  have hbound := h.limit
  have hlow := sound.filesLimit_lt
  have hlength : (older ++ [segment]).length = older.length + 1 := by simp
  have hnum : nextNumeral b.newest = numeral first (older ++ [segment]).length := by
    rw [hnewest, nextNumeral_numeral, hlength]
  rw [allocateNewFile, if_neg (by rw [h.state]; decide), LogFs.call_quiet hcounts.quiet]
  dsimp only
  rw [hnum]
  exact openNumbered_up sound hcounts h.state h.listed (by omega)

/-- The record goes where there is room for it, which is found before it is written. -/
theorem writeRecord_after (h : Up config b older segment) (sound : config.Sound)
    (data : List (BitVec 8)) {b₁ : LogBackend} {older₁ : List (List (BitVec 8))}
    {segment₁ : List (BitVec 8)} (up : Up config b₁ older₁ segment₁) (kept : Kept config b b₁)
    (room : (if (segment.length : Int) + data.length > config.fileSize then
      allocateNewFile config b else some (0, b)) = some (0, b₁)) :
    ∃ b', writeRecord config data b = some ((data.length : Int), b') ∧
      Up config b' older₁ (segment₁ ++ data) ∧ Kept config b b' := by
  obtain ⟨_, _, _, hfile⟩ := h.log
  obtain ⟨hstored, hkept⟩ := up.store sound data
  have htell : b.fs.tell = ((segment.length : Int), b.fs) := by
    simp [LogFs.tell, LogFs.call_quiet h.quiet, hfile]
  have hsync : (b₁.fs.store data).call = (0, b₁.fs.store data) := LogFs.call_quiet hstored.quiet
  refine ⟨_, ?_, hstored, kept.trans hkept⟩
  rw [writeRecord, htell]
  dsimp only
  rw [if_neg (by omega), room]
  dsimp only
  rw [if_neg (by decide), LogFs.write_quiet up.quiet]
  dsimp only
  rw [if_pos (by omega), if_neg (by simp), hsync]
  rfl

end Up

/-- A backend that has not been written to since the last restart. -/
structure Down (config : LogConfig) (b : LogBackend) (older : List (List (BitVec 8))) : Prop where
  state : b.backendState = .notInitialized
  quiet : b.fs.outcomes = []
  fileCtr : b.fileCtr = 0
  limit : older.length ≤ config.filesLimit
  log : ∃ first, HoldsFrom config first older b.fs.entries ∧ 0 ≤ first ∧ first ≤ MAX_FILE_NUMERAL

/-- The volume of the log directory is mounted, and the directory is there or can be made. -/
structure Volume (config : LogConfig) (fs : LogFs) : Prop where
  mounted : checkLogVolumenAvailable config fs.mounts = 0
  reached : strchr config.dir 1 '/' = none → config.dir ∈ fs.dirs
  ends : config.dir.getLast? ≠ some '/'

/-- The backend and its directory stand for the log. -/
structure StandsFor (config : LogConfig) (b : LogBackend) (log : RotatingLog (BitVec 8)) :
    Prop where
  volume : Volume config b.fs
  log : match log.current with
    | none => Down config b log.older
    | some segment => Up config b log.older segment

/-- A record is written to a backend that is up as to the log it stands for. -/
theorem writeRecord_standsFor (sound : config.Sound) (volume : Volume config b.fs)
    {older : List (List (BitVec 8))} {segment : List (BitVec 8)} (h : Up config b older segment)
    (data : List (BitVec 8)) :
    ∃ b', writeRecord config data b = some ((data.length : Int), b') ∧
      StandsFor config b' (RotatingLog.appendTo sound.limits data older segment) ∧
      Kept config b b' := by
  have hvolume : ∀ b', Kept config b b' → Volume config b'.fs := by
    intro b' hkept
    refine ⟨?_, ?_, volume.ends⟩
    · rw [hkept.mounts]
      exact volume.mounted
    · rw [hkept.dirs]
      exact volume.reached
  rcases RotatingLog.appendTo_cases sound.limits data older segment with
    ⟨hfits, hwrite⟩ | ⟨hover, hwrite⟩
  · change segment.length + data.length ≤ config.fileSize at hfits
    obtain ⟨b', hrun, hup', hkept⟩ :=
      h.writeRecord_after sound data h (Kept.refl b) (if_neg (by omega))
    rw [hwrite]
    exact ⟨b', hrun, ⟨hvolume b' hkept, hup'⟩, hkept⟩
  · change config.fileSize < segment.length + data.length at hover
    obtain ⟨b₁, halloc, hup₁, hkept₁⟩ := h.allocate sound
    obtain ⟨b', hrun, hup', hkept⟩ :=
      h.writeRecord_after sound data hup₁ hkept₁ (by rw [if_pos (by omega), halloc])
    rw [hwrite]
    exact ⟨b', hrun, ⟨hvolume b' hkept, hup'⟩, hkept⟩

end Rotating

end MyMouse
