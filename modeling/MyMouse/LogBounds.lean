import MyMouse.LogFaults
import Mathlib.Data.Nat.Find

namespace MyMouse

open Runs LogFs

variable {config : LogConfig} {b b' : LogBackend} {rc : Int}

/-- What a call of `write_log_to_file` leaves: a backend that goes on or one that has given up. -/
structure Served (config : LogConfig) (b b' : LogBackend) : Prop where
  ledger : Ledger config b'
  foreign : SameForeign config b.fs.entries b'.fs.entries
  outcome : (b'.backendState = .ok ∧ Writing config b') ∨ b'.backendState = .corrupted

theorem Writing.later (h : Writing config b) {fs : LogFs} (later : Later b.fs fs) :
    Writing config { b with fs } := by
  obtain ⟨hcounted, _⟩ := h.toCounted.later later
  refine ⟨hcounted, h.newest_nonneg, h.newest_le, h.limit, ?_, ?_⟩
  · rw [later.file]
    exact h.file
  · rw [later.entries]
    exact h.lost

theorem written_length (content data : List (BitVec 8)) (pos : Nat) {longest : Nat}
    (hcontent : content.length ≤ longest) (hdata : pos + data.length ≤ longest) :
    (content.take pos ++ data ++ content.drop (pos + data.length)).length ≤ longest := by
  rw [List.length_append, List.length_append, List.length_take, List.length_drop]
  omega

/-- What is written goes to the newest file of the log, or nowhere where that has been removed. -/
theorem Writing.store (h : Writing config b) (data : List (BitVec 8))
    (fits : b.fs.file.pos + data.length ≤ config.longest) :
    Writing config { b with fs := b.fs.store data } ∧
      SameForeign config b.fs.entries (b.fs.store data).entries := by
  unfold LogFs.store LogFs.entry
  rw [h.file]
  split
  next content hlookup =>
    have hmem : logFileName config b.newest ∈ b.fs.entries := by
      apply AList.lookup_isSome.mp
      rw [hlookup]
      rfl
    have hid : ∀ entry, b.fs.entries.lookup (logFileName config b.newest) = some entry →
        0 ≤ getLogFileId config (logFileName config b.newest) entry := by
      intro entry hentry
      rw [h.tidy.numbered h.newest_nonneg h.newest_le hentry]
      exact h.newest_nonneg
    have hsize := h.tidy.sizes _ _ hlookup (hid _ hlookup)
    have hlength := written_length content data b.fs.file.pos hsize fits
    dsimp only
    generalize content.take b.fs.file.pos ++ data ++
      content.drop (b.fs.file.pos + data.length) = content' at hlength ⊢
    have hid' : 0 ≤ getLogFileId config (logFileName config b.newest) (.file content') := by
      rw [getLogFileId_logFileName h.newest_nonneg h.newest_le]
      exact h.newest_nonneg
    have hcount : logFiles config (b.fs.entries.insert (logFileName config b.newest)
        (.file content')) = logFiles config b.fs.entries := by
      rw [logFiles_insert _ hid', logFiles_erase hmem hid]
    refine ⟨⟨⟨⟨h.tidy.insert _ hlength, ?_, h.whole⟩, ?_, h.oldest_nonneg, h.oldest_le⟩,
      h.newest_nonneg, h.newest_le, h.limit, ?_, ?_⟩, ?_⟩
    · rw [hcount]
      exact h.few
    · rw [hcount]
      exact h.counted
    · exact h.file
    · intro hlost
      exact absurd ((AList.mem_insert _).mpr (Or.inl rfl)) hlost
    · exact sameForeign_insert h.newest_nonneg h.newest_le _ _
  next => exact ⟨⟨⟨⟨h.tidy, h.few, h.whole⟩, h.counted, h.oldest_nonneg, h.oldest_le⟩,
      h.newest_nonneg, h.newest_le, h.limit, h.file, h.lost⟩, SameForeign.refl _⟩

theorem Counted.allocate (h : Counted config b) (state : b.backendState ≠ .notInitialized)
    (hlo : 0 ≤ b.newest) (run : allocateNewFile config b = some (rc, b')) :
    Ledger config b' ∧ Within config b b' ∧
      (0 ≤ rc → Writing config b' ∧ b'.fs.file.pos = 0) := by
  obtain ⟨hclosed, hwithin⟩ := h.later (call_spec b.fs).1
  unfold allocateNewFile at run
  rw [if_neg state] at run
  obtain ⟨hledger, hwithin', hwriting⟩ :=
    openNumbered_writing (nextNumeral_nonneg hlo) (nextNumeral_le _) hclosed run
  exact ⟨hledger, hwithin.trans hwithin', hwriting⟩

theorem Ledger.served_corrupted (h : Ledger config b') (foreign : SameForeign config b.fs.entries
    b'.fs.entries) {b₁ : LogBackend} (hfs : b₁.fs = b'.fs) (state : b₁.backendState = .corrupted) :
    Served config b b₁ := by
  refine ⟨h.later (Later.refl _) hfs, ?_, Or.inr state⟩
  rw [hfs]
  exact foreign

/-- The end of `write_log_to_file`. -/
theorem Writing.served_synced (h : Writing config b') (state : b'.backendState = .ok)
    (foreign : SameForeign config b.fs.entries b'.fs.entries) {length code : Int}
    (run : (if b'.fs.call.1 < 0 then
        some (LogBackend.onError length { b' with fs := b'.fs.call.2 })
      else some (length, { b' with fs := b'.fs.call.2 })) = some (code, b₁)) :
    Served config b b₁ := by
  obtain ⟨hlater, _⟩ := call_spec b'.fs
  have hforeign : SameForeign config b.fs.entries b'.fs.call.2.entries := by
    rw [hlater.entries]
    exact foreign
  split at run
  next =>
    obtain ⟨_, rfl⟩ := Prod.mk.inj (Option.some.inj run)
    exact ⟨h.toLedger.later hlater rfl, hforeign, Or.inr rfl⟩
  next =>
    obtain ⟨_, rfl⟩ := Prod.mk.inj (Option.some.inj run)
    exact ⟨h.toLedger.later hlater rfl, hforeign, Or.inl ⟨state, h.later hlater⟩⟩

/-- The newest file is missing where no entry of the directory has its number. -/
theorem Writing.counted_lost (h : Writing config b)
    (lost : ∀ e ∈ b.fs.entries.entries, fileId config e ≠ b.newest) :
    Counted config { b with fileCtr := b.fileCtr - 1 } := by
  have hmissing : logFileName config b.newest ∉ b.fs.entries := by
    intro hmem
    obtain ⟨entry, before, after, hlookup, hsplit, _⟩ := exists_split hmem
    apply lost ⟨logFileName config b.newest, entry⟩
    · rw [hsplit]
      exact List.mem_append_right _ List.mem_cons_self
    · exact h.tidy.numbered h.newest_nonneg h.newest_le hlookup
  have hcount := h.lost hmissing
  refine ⟨⟨h.tidy, h.few, h.whole⟩, ?_, h.oldest_nonneg, h.oldest_le⟩
  change (logFiles config b.fs.entries : Int) ≤ b.fileCtr - 1
  omega

/-- The branch of `write_log_to_file` for a write that has failed. -/
theorem Writing.served_failed (h : Writing config b) (state : b.backendState = .ok) {length : Int}
    (run : (match (if (checkLogFileExist config b.newest b.fs).1 = 0 then
          allocateNewFile config { b with
            fs := (checkLogFileExist config b.newest b.fs).2, fileCtr := b.fileCtr - 1 }
        else some ((checkLogFileExist config b.newest b.fs).1,
          { b with fs := (checkLogFileExist config b.newest b.fs).2 })) with
      | none => none
      | some (rc, b) =>
        if rc < 0 then some (b.onError length)
        else
          if b.fs.call.1 < 0 then some (LogBackend.onError 0 { b with fs := b.fs.call.2 })
          else some (0, { b with fs := b.fs.call.2 })) = some (rc, b')) :
    Served config b b' := by
  obtain ⟨hlater, hnone⟩ := checkLogFileExist_spec b.newest b.fs
  have hchecked := h.later hlater
  have hforeign : SameForeign config b.fs.entries
      (checkLogFileExist config b.newest b.fs).2.entries := by
    rw [hlater.entries]
    exact SameForeign.refl _
  split at run
  next => cases run
  next code b₁ hmade =>
    have hgone : Ledger config b₁ ∧ SameForeign config b.fs.entries b₁.fs.entries ∧
        b₁.backendState = .ok ∧ (0 ≤ code → Writing config b₁) := by
      split at hmade
      next hzero =>
        have hcounted : Counted config { b with
            fs := (checkLogFileExist config b.newest b.fs).2, fileCtr := b.fileCtr - 1 } := by
          apply hchecked.counted_lost
          intro e he
          change e ∈ (checkLogFileExist config b.newest b.fs).2.entries.entries at he
          rw [hlater.entries] at he
          exact hnone hzero e he
        obtain ⟨hledger, hwithin, hwriting⟩ := hcounted.allocate
          (by dsimp only; rw [state]; decide) h.newest_nonneg hmade
        exact ⟨hledger, hforeign.trans hwithin.foreign, hwithin.state.trans state,
          fun hzero => (hwriting hzero).1⟩
      next =>
        obtain ⟨rfl, rfl⟩ := Prod.mk.inj (Option.some.inj hmade)
        exact ⟨hchecked.toLedger, hforeign, state, fun _ => hchecked⟩
    obtain ⟨hledger, hforeign₁, hstate₁, hwriting⟩ := hgone
    split at run
    next =>
      obtain ⟨_, rfl⟩ := Prod.mk.inj (Option.some.inj run)
      exact hledger.served_corrupted hforeign₁ rfl rfl
    next => exact (hwriting (by omega)).served_synced hstate₁ hforeign₁ run

theorem Served.after (foreign : SameForeign config b.fs.entries b'.fs.entries) {b₁ : LogBackend}
    (h : Served config b' b₁) : Served config b b₁ :=
  ⟨h.ledger, foreign.trans h.foreign, h.outcome⟩

/-- Whatever goes wrong with a record, the backend goes on with its account in order or gives
up. -/
theorem Writing.writeRecord_served (h : Writing config b) (state : b.backendState = .ok)
    {data : List (BitVec 8)} (hdata : data.length ≤ MAX_FLASH_WRITE_SIZE)
    (run : writeRecord config data b = some (rc, b')) : Served config b b' := by
  obtain ⟨htell, hpos⟩ := tell_spec b.fs
  have htold := h.later htell
  have hforeign : SameForeign config b.fs.entries b.fs.tell.2.entries := by
    rw [htell.entries]
    exact SameForeign.refl _
  unfold writeRecord at run
  dsimp only at run
  split at run
  next =>
    obtain ⟨_, rfl⟩ := Prod.mk.inj (Option.some.inj run)
    exact htold.toLedger.served_corrupted hforeign rfl rfl
  next hsize =>
    -- the record has room after the first allocation, whether there is one or not
    have hroom : ∀ code b₁, (if b.fs.tell.1 + (data.length : Int) > config.fileSize then
        allocateNewFile config { b with fs := b.fs.tell.2 }
        else some (0, { b with fs := b.fs.tell.2 })) = some (code, b₁) →
        Ledger config b₁ ∧ SameForeign config b.fs.entries b₁.fs.entries ∧
          b₁.backendState = .ok ∧ (0 ≤ code → Writing config b₁ ∧
            b₁.fs.file.pos + data.length ≤ config.longest) := by
      intro code b₁ hmade
      have hlongest := Nat.le_max_left config.fileSize MAX_FLASH_WRITE_SIZE
      have hbuffer := Nat.le_max_right config.fileSize MAX_FLASH_WRITE_SIZE
      split at hmade
      next =>
        obtain ⟨hledger, hwithin, hwriting⟩ := htold.toCounted.allocate
          (by dsimp only; rw [state]; decide) h.newest_nonneg hmade
        refine ⟨hledger, hforeign.trans hwithin.foreign, hwithin.state.trans state, ?_⟩
        intro hzero
        obtain ⟨hwriting, hstart⟩ := hwriting hzero
        refine ⟨hwriting, ?_⟩
        unfold LogConfig.longest
        omega
      next hfits =>
        obtain ⟨rfl, rfl⟩ := Prod.mk.inj (Option.some.inj hmade)
        refine ⟨htold.toLedger, hforeign, state, fun _ => ⟨htold, ?_⟩⟩
        have hat := hpos (by omega)
        change b.fs.tell.2.file.pos + data.length ≤ config.longest
        rw [htell.file]
        unfold LogConfig.longest
        omega
    split at run
    next => cases run
    next code b₁ hmade =>
      obtain ⟨hledger, hforeign₁, hstate₁, hwriting⟩ := hroom code b₁ hmade
      split at run
      next =>
        obtain ⟨_, rfl⟩ := Prod.mk.inj (Option.some.inj run)
        exact hledger.served_corrupted hforeign₁ rfl rfl
      next hdone =>
        obtain ⟨hwriting, hfits⟩ := hwriting (by omega)
        obtain ⟨fs, hlater, hwrite | ⟨code', hfail, hneg⟩⟩ := write_spec b₁.fs data hledger.whole
        · have hput := hwriting.later hlater
          obtain ⟨hstored, hforeign₂⟩ := hput.store data (by
            change fs.file.pos + data.length ≤ config.longest
            rw [hlater.file]
            exact hfits)
          have hkept : SameForeign config b₁.fs.entries (fs.store data).entries := by
            rw [← hlater.entries]
            exact hforeign₂
          rw [hwrite] at run
          dsimp only at run
          rw [if_pos (by omega), if_neg (by simp)] at run
          exact hstored.served_synced hstate₁ (hforeign₁.trans hkept) run
        · rw [hfail] at run
          dsimp only at run
          rw [if_neg (by omega)] at run
          have hkept : SameForeign config b₁.fs.entries fs.entries := by
            rw [hlater.entries]
            exact SameForeign.refl _
          exact ((hwriting.later hlater).served_failed hstate₁ run).after (hforeign₁.trans hkept)

/-- What holds of the backend between two events. -/
structure Orderly (config : LogConfig) (b : LogBackend) : Prop where
  ledger : Ledger config b
  writing : b.backendState = .ok → Writing config b
  zero : b.backendState = .notInitialized → b.fileCtr = 0

theorem Ledger.allocateNewFile_initial (h : Ledger config b)
    (state : b.backendState = .notInitialized) (hctr : b.fileCtr = 0)
    (hlimit : 0 < config.filesLimit)
    (hround : b.fs.outcomes = [] ∨ NotRound config b.fs.entries)
    (run : allocateNewFile config b = some (rc, b')) :
    Ledger config b' ∧ SameForeign config b.fs.entries b'.fs.entries ∧
      (0 ≤ rc → Writing config b') := by
  unfold allocateNewFile at run
  rw [if_pos state] at run
  cases hsearch : searchLastUsed config b with
  | mk code b₁ =>
    obtain ⟨hledger, hwithin, hcounted⟩ :=
      searchLastUsed_counted h hctr hlimit hround hsearch
    rw [hsearch] at run
    dsimp only at run
    split at run
    next hneg =>
      obtain ⟨rfl, rfl⟩ := Prod.mk.inj (Option.some.inj run)
      exact ⟨hledger, hwithin.foreign, fun hzero => by omega⟩
    next hdone =>
      obtain ⟨hcounted, hnewest, hnewestLe⟩ := hcounted (by omega)
      have hup : Counted config { b₁ with backendState := .ok } :=
        ⟨⟨hcounted.tidy, hcounted.few, hcounted.whole⟩, hcounted.counted, hcounted.oldest_nonneg,
          hcounted.oldest_le⟩
      have hnum : 0 ≤ (if b₁.fileCtr ≥ 1 then nextNumeral b₁.newest else b₁.newest) ∧
          (if b₁.fileCtr ≥ 1 then nextNumeral b₁.newest else b₁.newest) ≤ MAX_FILE_NUMERAL := by
        split
        · exact ⟨nextNumeral_nonneg hnewest, nextNumeral_le _⟩
        · exact ⟨hnewest, hnewestLe⟩
      obtain ⟨hledger', hwithin', hwriting⟩ := openNumbered_writing hnum.1 hnum.2 hup run
      exact ⟨hledger', hwithin.foreign.trans hwithin'.foreign, fun hzero => (hwriting hzero).1⟩

theorem Ledger.initBackend_served (h : Ledger config b) (state : b.backendState = .notInitialized)
    (hctr : b.fileCtr = 0) (hlimit : 0 < config.filesLimit)
    (hround : b.fs.outcomes = [] ∨ NotRound config b.fs.entries)
    (run : initBackend config b = some b') : Served config b b' := by
  have hlater := createLogDir_later config.dir b.fs
  unfold initBackend at run
  dsimp only at run
  split at run
  next => cases run
  next code b₁ hmade =>
    obtain rfl := Option.some.inj run
    have hgone : Ledger config b₁ ∧ SameForeign config b.fs.entries b₁.fs.entries ∧
        (code = 0 → Writing config b₁) := by
      split at hmade
      next =>
        have hround' : (createLogDir config.dir b.fs).2.outcomes = [] ∨
            NotRound config (createLogDir config.dir b.fs).2.entries := by
          rcases hround with quiet | hround
          · left
            have := hlater.outcomes
            rw [quiet] at this
            exact List.suffix_nil.mp this
          · right
            rw [hlater.entries]
            exact hround
        obtain ⟨hledger, hforeign, hwriting⟩ :=
          (h.later hlater rfl : Ledger config { b with fs := _ }).allocateNewFile_initial
            state hctr hlimit hround' hmade
        rw [hlater.entries] at hforeign
        exact ⟨hledger, hforeign, fun hzero => hwriting (by omega)⟩
      next hother =>
        obtain ⟨rfl, rfl⟩ := Prod.mk.inj (Option.some.inj hmade)
        refine ⟨h.later hlater rfl, ?_, fun hzero => absurd hzero hother⟩
        rw [hlater.entries]
        exact SameForeign.refl _
    obtain ⟨hledger, hforeign, hwriting⟩ := hgone
    refine ⟨⟨hledger.tidy, hledger.few, hledger.whole⟩, hforeign, ?_⟩
    by_cases hcode : code = 0
    · have hw := hwriting hcode
      left
      refine ⟨by simp [hcode], ⟨⟨⟨hw.tidy, hw.few, hw.whole⟩, hw.counted, hw.oldest_nonneg,
        hw.oldest_le⟩, hw.newest_nonneg, hw.newest_le, hw.limit, hw.file, hw.lost⟩⟩
    · right
      simp [hcode]

theorem Served.orderly (h : Served config b b') : Orderly config b' := by
  refine ⟨h.ledger, ?_, ?_⟩
  · intro state
    rcases h.outcome with ⟨_, hwriting⟩ | hcorrupted
    · exact hwriting
    · rw [hcorrupted] at state
      cases state
  · intro state
    rcases h.outcome with ⟨hok, _⟩ | hcorrupted
    · rw [hok] at state
      cases state
    · rw [hcorrupted] at state
      cases state

theorem Orderly.writeLogToFile (h : Orderly config b) (hlimit : 0 < config.filesLimit)
    {data : List (BitVec 8)} (hdata : data.length ≤ MAX_FLASH_WRITE_SIZE)
    (hround : b.backendState = .notInitialized →
      b.fs.outcomes = [] ∨ NotRound config b.fs.entries)
    (run : MyMouse.writeLogToFile config data b = some (rc, b')) :
    Orderly config b' ∧ SameForeign config b.fs.entries b'.fs.entries := by
  unfold MyMouse.writeLogToFile at run
  split at run
  next =>
    obtain ⟨_, rfl⟩ := Prod.mk.inj (Option.some.inj run)
    exact ⟨h, SameForeign.refl _⟩
  next =>
    split at run
    next => cases run
    next b₁ hinit =>
      have hfirst : Orderly config b₁ ∧ SameForeign config b.fs.entries b₁.fs.entries := by
        split at hinit
        next state =>
          have hserved := h.ledger.initBackend_served state (h.zero state) hlimit
            (hround state) hinit
          exact ⟨hserved.orderly, hserved.foreign⟩
        next =>
          obtain rfl := Option.some.inj hinit
          exact ⟨h, SameForeign.refl _⟩
      obtain ⟨horderly, hforeign⟩ := hfirst
      split at run
      next state =>
        have hserved := (horderly.writing state).writeRecord_served state hdata run
        exact ⟨hserved.orderly, hforeign.trans hserved.foreign⟩
      next =>
        obtain ⟨_, rfl⟩ := Prod.mk.inj (Option.some.inj run)
        exact ⟨horderly, hforeign⟩

theorem Orderly.outcomes (h : Orderly config b) (outcomes : List FsOutcome)
    (whole : ∀ outcome ∈ outcomes, outcome.IsWhole) :
    Orderly config { b with fs := { b.fs with outcomes } } := by
  refine ⟨⟨h.ledger.tidy, h.ledger.few, whole⟩, ?_, h.zero⟩
  intro state
  have hw := h.writing state
  exact ⟨⟨⟨hw.tidy, hw.few, whole⟩, hw.counted, hw.oldest_nonneg, hw.oldest_le⟩,
    hw.newest_nonneg, hw.newest_le, hw.limit, hw.file, hw.lost⟩

theorem Orderly.remove (h : Orderly config b) (name : FileName) :
    Orderly config { b with fs := { b.fs with entries := b.fs.entries.erase name } } := by
  have hle := @logFiles_erase_le config b.fs.entries name
  have hfew := h.ledger.few
  have hledger : Ledger config
      { b with fs := { b.fs with entries := b.fs.entries.erase name } } := by
    refine ⟨h.ledger.tidy.erase name, ?_, h.ledger.whole⟩
    change (logFiles config (b.fs.entries.erase name) : Int) ≤ config.filesLimit
    omega
  refine ⟨hledger, ?_, h.zero⟩
  intro state
  have hw := h.writing state
  have hcounted := hw.counted
  refine ⟨⟨hledger, ?_, hw.oldest_nonneg, hw.oldest_le⟩, hw.newest_nonneg, hw.newest_le,
    hw.limit, hw.file, ?_⟩
  · change (logFiles config (b.fs.entries.erase name) : Int) ≤ b.fileCtr
    omega
  · intro hlost
    change (logFiles config (b.fs.entries.erase name) : Int) + 1 ≤ b.fileCtr
    by_cases hmem : logFileName config b.newest ∈ b.fs.entries
    · -- it is the newest file that is removed
      have hname : logFileName config b.newest = name := by
        by_contra hne
        exact hlost (AList.mem_erase.mpr ⟨hne, hmem⟩)
      rw [← hname]
      have hgone := logFiles_erase hmem fun entry hentry =>
        (hw.tidy.numbered hw.newest_nonneg hw.newest_le hentry).symm ▸ hw.newest_nonneg
      omega
    · have := hw.lost hmem
      omega

namespace LogBackend

variable {trace : List (LogBackend × LogEvent)} {b₀ : LogBackend}

/-- Anything may fail, but no record is longer than the buffer of the log output, no write is cut
short, and a restart meets no error in a directory whose numbers have gone round. -/
def Bounded (config : LogConfig) (b : LogBackend) : LogEvent → Prop
  | .write data outcomes => data.length ≤ MAX_FLASH_WRITE_SIZE ∧
      (∀ outcome ∈ outcomes, outcome.IsWhole) ∧
      (b.backendState = .notInitialized → outcomes = [] ∨ NotRound config b.fs.entries)
  | _ => True

theorem orderly_reboot (tidy : Tidy config b₀.fs.entries)
    (few : logFiles config b₀.fs.entries ≤ config.filesLimit) (whole : b₀.fs.Whole) :
    Orderly config b₀.reboot := by
  refine ⟨⟨tidy, few, whole⟩, ?_, fun _ => rfl⟩
  intro state
  cases state

/-- A name that is no log file's. -/
def Foreign (config : LogConfig) (name : FileName) : Prop :=
  ∀ num, 0 ≤ num → num ≤ MAX_FILE_NUMERAL → name ≠ logFileName config num

theorem orderly_step (hlimit : 0 < config.filesLimit) {event : LogEvent}
    (h : Orderly config b) (bounded : Bounded config b event)
    (hstep : step config b event = some b') :
    Orderly config b' ∧ ∀ name, Foreign config name → event ≠ .remove name →
      b'.fs.entries.lookup name = b.fs.entries.lookup name := by
  cases event with
  | write data outcomes =>
    obtain ⟨hdata, whole, hround⟩ := bounded
    unfold step at hstep
    obtain ⟨⟨code, b₁⟩, hrun, rfl⟩ := Option.map_eq_some_iff.mp hstep
    obtain ⟨horderly, hforeign⟩ :=
      (h.outcomes outcomes whole).writeLogToFile hlimit hdata hround hrun
    exact ⟨horderly.outcomes [] (fun outcome hmem => by cases hmem),
      fun name hname _ => hforeign name hname⟩
  | restart =>
    obtain rfl := Option.some.inj hstep
    exact ⟨orderly_reboot h.ledger.tidy h.ledger.few h.ledger.whole, fun _ _ _ => rfl⟩
  | remove removed =>
    obtain rfl := Option.some.inj hstep
    refine ⟨h.remove removed, ?_⟩
    intro name _ hother
    apply AList.lookup_erase_ne
    intro hname
    rw [hname] at hother
    exact hother rfl

theorem orderly_run (hlimit : 0 < config.filesLimit) (tidy : Tidy config b₀.fs.entries)
    (few : logFiles config b₀.fs.entries ≤ config.filesLimit) (whole : b₀.fs.Whole)
    (run : Run (step config) b₀.reboot trace b) (bounded : AllSteps (Bounded config) trace) :
    AllStates (Orderly config) trace b :=
  run.invariant bounded (orderly_reboot tidy few whole)
    fun _ _ _ h hok hstep => (orderly_step hlimit h hok hstep).1

/-- Whatever fails, there are never more log files than the limit, nor more bytes in them than so
many files of the largest size hold, and the other files are as they were. -/
theorem log_bounded_run (hlimit : 0 < config.filesLimit) (tidy : Tidy config b₀.fs.entries)
    (few : logFiles config b₀.fs.entries ≤ config.filesLimit) (whole : b₀.fs.Whole)
    (run : Run (step config) b₀.reboot trace b) (bounded : AllSteps (Bounded config) trace) :
    AllStates (fun b => logFiles config b.fs.entries ≤ config.filesLimit ∧
      logBytes config b.fs.entries ≤ config.filesLimit * config.longest) trace b ∧
    ∀ name, Foreign config name → (∀ p ∈ trace, p.2 ≠ .remove name) →
      b.fs.entries.lookup name = b₀.fs.entries.lookup name := by
  have horderly := orderly_run hlimit tidy few whole run bounded
  refine ⟨horderly.imp ?_, ?_⟩
  · intro b h
    have hfew := h.ledger.few
    have hbytes : (logBytes config b.fs.entries : Int) ≤
        logFiles config b.fs.entries * config.longest := by
      exact_mod_cast logBytes_le h.ledger.tidy
    exact ⟨hfew, hbytes.trans (Int.mul_le_mul_of_nonneg_right hfew (Int.natCast_nonneg _))⟩
  · intro name hname
    induction run with
    | start => exact fun _ => rfl
    | @next trace b event b' _ hstep ih =>
      intro hleft
      obtain ⟨hevent, hrest⟩ := allSteps_cons.mp bounded
      obtain ⟨_, hbefore⟩ := allStates_cons.mp horderly
      have hsame := (orderly_step hlimit hbefore.1 hevent hstep).2 name hname
        (hleft (b, event) List.mem_cons_self)
      rw [hsame]
      exact ih hrest hbefore fun p hp => hleft p (List.mem_cons_of_mem _ hp)

instance (config : LogConfig) (entries : LogDir) : Decidable (NotRound config entries) :=
  inferInstanceAs (Decidable (∀ e ∈ entries.entries, ∀ e' ∈ entries.entries, _))

instance (config : LogConfig) (b : LogBackend) (event : LogEvent) :
    Decidable (Bounded config b event) :=
  match event with
  | .write data [] => decidable_of_iff (data.length ≤ MAX_FLASH_WRITE_SIZE) (by simp [Bounded])
  | .write data (outcome :: outcomes) =>
    decidable_of_iff (data.length ≤ MAX_FLASH_WRITE_SIZE ∧
        (∀ o ∈ outcome :: outcomes, o.IsWhole) ∧
        (b.backendState = .notInitialized → NotRound config b.fs.entries))
      (by simp [Bounded])
  | .restart => isTrue trivial
  | .remove _ => isTrue trivial

def mediumError : FsError := ⟨- EIO, by decide, by decide⟩

/-- The third record cannot be written and the file is there, so it is dropped; the newest file is
removed by somebody else, and the write after it fails. -/
def failingRecords : List LogEvent :=
  [.write [1#8, 1#8] [], .write [2#8, 2#8, 2#8] [], .write [3#8] [.done, .failed mediumError],
    .remove ['l', '.', '0', '0', '0', '1'], .write [4#8] [.done, .failed mediumError]]

theorem log_bounded_run_failing : ∃ trace b,
    Run (step twoLogs) (⟨mounted, .notInitialized, 0, 0, 0⟩ : LogBackend).reboot trace b ∧
    trace.map Prod.snd = failingRecords.reverse ∧
    AllStates (fun b => logFiles twoLogs b.fs.entries ≤ twoLogs.filesLimit ∧
      logBytes twoLogs b.fs.entries ≤ twoLogs.filesLimit * twoLogs.longest) trace b := by
  have hreplay : (replay (guarded (Bounded twoLogs) (step twoLogs))
      (⟨mounted, .notInitialized, 0, 0, 0⟩ : LogBackend).reboot failingRecords).isSome = true := by
    decide +kernel
  obtain ⟨trace, b, run, bounded, labels⟩ := exists_allowed_run hreplay
  have tidy : Tidy twoLogs mounted.entries := by
    refine ⟨?_, ?_⟩
    · intro num _ _ hdir
      cases hdir
    · intro name content hfile
      cases hfile
  exact ⟨trace, b, run, labels, (log_bounded_run (by decide) tidy (by decide)
    (fun _ hmem => by cases hmem) run bounded).1⟩

/-- No file of the directory has a name the backend gives to a file. -/
def NoneNumbered (config : LogConfig) (entries : LogDir) : Prop :=
  ∀ num, 0 ≤ num → num ≤ MAX_FILE_NUMERAL → logFileName config num ∉ entries

theorem delOldestFrom_none (quiet : b.fs.outcomes = []) (none : NoneNumbered config b.fs.entries)
    (hlo : 0 ≤ b.oldest) (hhi : b.oldest ≤ MAX_FILE_NUMERAL) (turns : Nat) :
    delOldestFrom config turns b = .none := by
  induction turns generalizing b with
  | zero => rfl
  | succ turns ih =>
    have hrest := @ih { b with oldest := nextNumeral b.oldest } quiet none
      (nextNumeral_nonneg hlo) (nextNumeral_le _)
    rw [delOldestFrom, unlink_quiet quiet, if_neg (none b.oldest hlo hhi)]
    dsimp only
    rw [if_pos (Or.inr rfl), if_neg (by unfold ENOENT; omega)]
    exact hrest

/-- The numbers are searched from the oldest on, all the way round. -/
theorem delOldestLog_found (quiet : b.fs.outcomes = []) (hlo : 0 ≤ b.oldest)
    (hhi : b.oldest ≤ MAX_FILE_NUMERAL) (some : ¬ NoneNumbered config b.fs.entries) :
    ∃ b', delOldestLog config b = .some (0, b') ∧ b'.fileCtr = b.fileCtr - 1 ∧
      b'.fs.outcomes = [] := by
  unfold NoneNumbered at some
  push Not at some
  obtain ⟨num, hnum, hnumLe, hmem⟩ := some
  have hreached : ∃ k, logFileName config (numeral b.oldest k) ∈ b.fs.entries ∧ k ≤ 9999 := by
    refine ⟨((num - b.oldest) % 10000).toNat, ?_, by omega⟩
    have hround : numeral b.oldest ((num - b.oldest) % 10000).toNat = num := by
      unfold MAX_FILE_NUMERAL at hnumLe
      unfold numeral
      omega
    rwa [hround]
  classical
  obtain ⟨hfound, hle⟩ := Nat.find_spec hreached
  have habsent : ∀ j < Nat.find hreached, logFileName config (numeral b.oldest j) ∉
      b.fs.entries := fun j hj hj' => Nat.find_min hreached hj ⟨hj', by omega⟩
  have hrun := delOldestFrom_found quiet (Nat.find hreached)
    (b.fs.outcomes.length + MAX_FILE_NUMERAL.toNat + 1)
    (by rw [show MAX_FILE_NUMERAL.toNat = 9999 from rfl]; omega) hlo hhi habsent hfound
  exact ⟨_, hrun, rfl, quiet⟩

theorem makeRoom_none_iff (overwrite : config.overwrite = true) (quiet : b.fs.outcomes = [])
    (limit : b.fileCtr ≤ config.filesLimit) (hlo : 0 ≤ b.oldest)
    (hhi : b.oldest ≤ MAX_FILE_NUMERAL) :
    makeRoom config b = none ↔
      b.fileCtr = config.filesLimit ∧ NoneNumbered config b.fs.entries := by
  unfold makeRoom
  by_cases hfull : b.fileCtr = config.filesLimit
  · rw [show (b.fileCtr + 1 - config.filesLimit).toNat = 0 + 1 by omega, makeRoomFrom,
      if_pos (by omega), if_pos overwrite]
    by_cases hnone : NoneNumbered config b.fs.entries
    · rw [delOldestLog, delOldestFrom_none quiet hnone hlo hhi]
      exact ⟨fun _ => ⟨hfull, hnone⟩, fun _ => rfl⟩
    · obtain ⟨b', hdel, _, hquiet⟩ := delOldestLog_found quiet hlo hhi hnone
      rw [hdel]
      dsimp only
      rw [if_neg (by omega), call_quiet hquiet]
      dsimp only
      rw [if_neg (by omega), makeRoomFrom]
      refine ⟨fun h => ?_, fun h => absurd h.2 hnone⟩
      cases h
  · rw [show (b.fileCtr + 1 - config.filesLimit).toNat = 0 by omega, makeRoomFrom]
    refine ⟨fun h => ?_, fun h => absurd h.1 hfull⟩
    cases h

theorem openNumbered_none_iff (num : Int) (quiet : b.fs.outcomes = []) :
    openNumbered config num b = none ↔ makeRoom config b = none := by
  unfold openNumbered
  rw [call_quiet quiet]
  dsimp only
  cases makeRoom config b with
  | none => simp
  | some result =>
    dsimp only
    split
    · simp
    · split <;> simp

theorem allocateNewFile_none_iff (quiet : b.fs.outcomes = [])
    (state : b.backendState ≠ .notInitialized) :
    allocateNewFile config b = none ↔ makeRoom config b = none := by
  unfold allocateNewFile
  rw [if_neg state, call_quiet quiet]
  exact openNumbered_none_iff _ quiet

/-- A record is never answered where it needs another file and there is no room for it. -/
theorem writeRecord_none_iff (h : Writing config b) (quiet : b.fs.outcomes = [])
    (state : b.backendState = .ok) (data : List (BitVec 8)) :
    writeRecord config data b = none ↔
      config.fileSize < b.fs.file.pos + data.length ∧ makeRoom config b = none := by
  have hup : b.backendState ≠ .notInitialized := by
    rw [state]
    decide
  have htell : b.fs.tell = ((b.fs.file.pos : Int), b.fs) := by
    simp [LogFs.tell, call_quiet quiet]
  unfold writeRecord
  rw [htell]
  dsimp only
  rw [if_neg (by omega)]
  by_cases hover : (b.fs.file.pos : Int) + data.length > config.fileSize
  · rw [if_pos hover, ← allocateNewFile_none_iff quiet hup]
    cases hmade : allocateNewFile config b with
    | none => exact ⟨fun _ => ⟨by omega, rfl⟩, fun _ => rfl⟩
    | some result =>
      obtain ⟨code, b₁⟩ := result
      obtain ⟨_, hwithin, _⟩ := h.toCounted.allocate hup h.newest_nonneg hmade
      have hquiet : b₁.fs.outcomes = [] := by
        have := hwithin.outcomes
        rw [quiet] at this
        exact List.suffix_nil.mp this
      refine ⟨fun hnone => ?_, fun hnone => by cases hnone.2⟩
      dsimp only at hnone
      split at hnone
      next => cases hnone
      next =>
        rw [write_quiet hquiet] at hnone
        dsimp only at hnone
        rw [if_pos (by omega), if_neg (by simp)] at hnone
        split at hnone <;> cases hnone
  · rw [if_neg hover]
    dsimp only
    rw [if_neg (by omega), write_quiet quiet]
    dsimp only
    rw [if_pos (by omega), if_neg (by simp)]
    refine ⟨fun hnone => ?_, fun hnone => absurd hnone.1 (by omega)⟩
    split at hnone <;> cases hnone

/-- A backend that is up never returns from a record exactly where the record needs another file,
there are as many as may be by its account, and somebody has removed every one of them. -/
theorem log_hangs_iff (sound : config.Sound) (tidy : Tidy config b₀.fs.entries)
    (few : logFiles config b₀.fs.entries ≤ config.filesLimit) (whole : b₀.fs.Whole)
    (run : Run (step config) b₀.reboot trace b) (bounded : AllSteps (Bounded config) trace)
    (up : b.backendState = .ok) (data : List (BitVec 8)) :
    step config b (.write data []) = none ↔
      config.fileSize < b.fs.file.pos + data.length ∧ b.fileCtr = config.filesLimit ∧
        NoneNumbered config b.fs.entries := by
  have horderly := (orderly_run sound.someFile tidy few whole run bounded).1
  have hwriting := (horderly.outcomes [] (fun _ hmem => by cases hmem)).writing up
  have hroom := makeRoom_none_iff sound.overwrite rfl hwriting.limit hwriting.oldest_nonneg
    hwriting.oldest_le
  have hrecord := writeRecord_none_iff hwriting rfl up data
  have hstep : step config b (.write data []) = none ↔
      writeRecord config data { b with fs := { b.fs with outcomes := [] } } = none := by
    have hnot : ¬ (b.backendState = .notInitialized) := by
      rw [up]
      decide
    unfold step writeLogToFile
    dsimp only
    rw [if_neg (fun h => hnot h.1), if_neg hnot]
    dsimp only
    rw [if_pos up]
    exact Option.map_eq_none_iff
  rw [hstep, hrecord, hroom]

/-- Both files are removed by somebody else, and the file that is written has no room. -/
def removedLogs : List LogEvent :=
  [.write [1#8, 1#8] [], .write [2#8, 2#8, 2#8] [], .remove ['l', '.', '0', '0', '0', '0'],
    .remove ['l', '.', '0', '0', '0', '1']]

theorem log_hangs_iff_removed : ∃ trace b,
    Run (step twoLogs) (⟨mounted, .notInitialized, 0, 0, 0⟩ : LogBackend).reboot trace b ∧
    trace.map Prod.snd = removedLogs.reverse ∧ step twoLogs b (.write [3#8, 3#8] []) = none := by
  have hreplay : (replay (guarded (Bounded twoLogs) (step twoLogs))
      (⟨mounted, .notInitialized, 0, 0, 0⟩ : LogBackend).reboot removedLogs).any
        (fun b => b.backendState = .ok ∧ b.fs.file.pos = 3 ∧ b.fileCtr = 2 ∧
          b.fs.entries.entries = []) = true := by
    decide +kernel
  obtain ⟨trace, b, hrun, labels, hb⟩ := exists_run_of_replay hreplay
  obtain ⟨run, bounded⟩ := hrun.of_guarded
  obtain ⟨up, hpos, hctr, hempty⟩ := of_decide_eq_true hb
  have tidy : Tidy twoLogs mounted.entries := by
    refine ⟨?_, ?_⟩
    · intro num _ _ hdir
      cases hdir
    · intro name content hfile
      cases hfile
  have hangs := log_hangs_iff twoLogs_sound tidy (by decide) (fun _ hmem => by cases hmem) run
    bounded up [3#8, 3#8]
  refine ⟨trace, b, run, labels, hangs.mpr ⟨?_, hctr, ?_⟩⟩
  · rw [hpos]
    decide
  · intro num _ _ hmem
    have hnone : b.fs.entries = ∅ := AList.ext hempty
    rw [hnone] at hmem
    exact AList.notMem_empty _ hmem

end LogBackend

end MyMouse
