import MyMouse.LogSearch

namespace MyMouse

open Rotation Runs

/-- What happens to the backend: a write of the log output with the way the calls of the file
system go in it, a restart, and a file that is removed by somebody else. -/
inductive LogEvent
  | write (data : List (BitVec 8)) (outcomes : List FsOutcome)
  | restart
  | remove (name : FileName)

namespace LogBackend

/-- The static variables have their first values and no file is open. -/
def reboot (b : LogBackend) : LogBackend :=
  { fs := { b.fs with file := ⟨[], 0⟩ }
    backendState := .notInitialized
    fileCtr := 0
    newest := 0
    oldest := 0 }

def step (config : LogConfig) (b : LogBackend) : LogEvent → Option LogBackend
  | .write data outcomes =>
    (writeLogToFile config data { b with fs := { b.fs with outcomes } }).map fun (_, b) =>
      { b with fs := { b.fs with outcomes := [] } }
  | .restart => some b.reboot
  | .remove name => some { b with fs := { b.fs with entries := b.fs.entries.erase name } }

/-- The medium has room, no call fails, and the files are left alone. -/
def Undisturbed (_ : LogBackend) : LogEvent → Prop
  | .write _ outcomes => outcomes = []
  | .restart => True
  | .remove _ => False

/-- What the events ask of the log, the latest first as in the trace. -/
def actions (trace : List (LogBackend × LogEvent)) : List (Action (BitVec 8)) :=
  trace.reverse.map fun p =>
    match p.2 with
    | .write data _ => .write data
    | _ => .restart

def logged (trace : List (LogBackend × LogEvent)) : List (BitVec 8) := written (actions trace)

variable {config : LogConfig} {b b₀ : LogBackend} {log log₀ : RotatingLog (BitVec 8)}
  {trace : List (LogBackend × LogEvent)}

theorem writeLogToFile_standsFor (sound : config.Sound) (h : StandsFor config b log)
    (data : List (BitVec 8)) :
    ∃ b', writeLogToFile config data b = some ((data.length : Int), b') ∧
      StandsFor config b' (log.write sound.limits data) ∧
      SameForeign config b.fs.entries b'.fs.entries := by
  obtain ⟨hvolume, hlog⟩ := h
  unfold RotatingLog.write
  split at hlog
  next hcurrent =>
    have hdown : Down config b log.older := hlog
    obtain ⟨b₁, hinit, hup, hvolume₁, hforeign⟩ := hdown.initBackend sound hvolume
    obtain ⟨b', hrun, hrep, hkept⟩ := writeRecord_standsFor sound hvolume₁ hup data
    refine ⟨b', ?_, by rw [hcurrent]; exact hrep, hforeign.trans hkept.foreign⟩
    unfold writeLogToFile
    rw [if_neg (by rw [hvolume.mounted]; simp), if_pos hdown.state, hinit]
    dsimp only
    rw [if_pos hup.state, hrun]
  next segment hcurrent =>
    have hup : Up config b log.older segment := hlog
    obtain ⟨b', hrun, hrep, hkept⟩ := writeRecord_standsFor sound hvolume hup data
    refine ⟨b', ?_, by rw [hcurrent]; exact hrep, hkept.foreign⟩
    have hnot : ¬ b.backendState = .notInitialized := by
      rw [hup.state]
      decide
    unfold writeLogToFile
    rw [if_neg (fun h => hnot h.1), if_neg hnot]
    dsimp only
    rw [if_pos hup.state, hrun]

theorem reboot_standsFor (h : StandsFor config b log) (quiet : b.fs.outcomes = []) :
    StandsFor config b.reboot log.restart := by
  obtain ⟨⟨hmounted, hreached, hends⟩, hlog⟩ := h
  refine ⟨⟨hmounted, hreached, hends⟩, ?_⟩
  change Down config b.reboot log.segments
  unfold RotatingLog.segments
  split at hlog
  next hcurrent =>
    have hdown : Down config b log.older := hlog
    rw [hcurrent, Option.toList_none, List.append_nil]
    exact ⟨rfl, quiet, rfl, hdown.limit, hdown.log⟩
  next segment hcurrent =>
    have hup : Up config b log.older segment := hlog
    obtain ⟨first, hcounts, _⟩ := hup.log
    have hlimit := hup.limit
    rw [hcurrent, Option.toList_some]
    refine ⟨rfl, quiet, rfl, ?_, first, hcounts.log, hcounts.first_nonneg, hcounts.first_le⟩
    rw [List.length_append, List.length_singleton]
    omega

theorem StandsFor.quiet (h : StandsFor config b log) : b.fs.outcomes = [] := by
  obtain ⟨_, hlog⟩ := h
  split at hlog
  next => exact hlog.quiet
  next => exact Up.quiet hlog

/-- Over every run in which the medium has room and nothing fails, restarts included, the
directory is that of the log the writes ask for, and the other files of it are as they were. -/
theorem log_standsFor_run (sound : config.Sound) (run : Run (step config) b₀ trace b)
    (undisturbed : AllSteps Undisturbed trace) (h : StandsFor config b₀ log₀) :
    StandsFor config b ((actions trace).foldl (RotatingLog.act sound.limits) log₀) ∧
      SameForeign config b₀.fs.entries b.fs.entries := by
  induction run with
  | start => exact ⟨h, SameForeign.refl _⟩
  | @next trace b event b' _ hstep ih =>
    obtain ⟨hevent, hrest⟩ := allSteps_cons.mp undisturbed
    obtain ⟨hrep, hforeign⟩ := ih hrest
    have hactions : actions ((b, event) :: trace) = actions trace ++ actions [(b, event)] := by
      simp [actions]
    rw [hactions, List.foldl_append]
    cases event with
    | write data outcomes =>
      have hnone : outcomes = [] := hevent
      have hsame : { b with fs := { b.fs with outcomes } } = b := by
        rw [hnone, ← StandsFor.quiet hrep]
      obtain ⟨b₁, hrun, hrep', hforeign'⟩ := writeLogToFile_standsFor sound hrep data
      rw [step, hsame, hrun] at hstep
      have hquiet : { b₁ with fs := { b₁.fs with outcomes := [] } } = b₁ := by
        rw [← StandsFor.quiet hrep']
      rw [Option.map_some] at hstep
      dsimp only at hstep
      rw [hquiet] at hstep
      cases Option.some.inj hstep
      exact ⟨hrep', hforeign.trans hforeign'⟩
    | restart =>
      cases Option.some.inj hstep
      exact ⟨reboot_standsFor hrep (StandsFor.quiet hrep), hforeign⟩
    | remove name => exact absurd hevent (fun h => h)

theorem fresh_standsFor {fs : LogFs} (volume : Volume config fs) (quiet : fs.outcomes = [])
    (hempty : fs.entries = ∅) (hlimit : 0 ≤ config.filesLimit) :
    StandsFor config ⟨fs, .notInitialized, 0, 0, 0⟩ .empty := by
  refine ⟨volume, ⟨rfl, quiet, rfl, hlimit, 0, ⟨?_, ?_, ?_⟩, by decide, by decide⟩⟩
  · intro i hi
    exact absurd hi (Nat.not_lt_zero i)
  · intro name entry hlookup
    rw [hempty] at hlookup
    simp at hlookup
  · intro num _ _ hdir
    rw [hempty] at hdir
    simp at hdir

instance (b : LogBackend) (event : LogEvent) : Decidable (Undisturbed b event) :=
  match event with
  | .write _ [] => isTrue rfl
  | .write _ (_ :: _) => isFalse (fun h => nomatch h)
  | .restart => isTrue trivial
  | .remove _ => isFalse (fun h => h)

/-- Two files of four bytes in /m/l. -/
def twoLogs : LogConfig :=
  { dir := ['/', 'm', '/', 'l']
    filePrefix := ['l', '.']
    fileSize := 4
    overwrite := true
    filesLimit := 2 }

theorem twoLogs_sound : twoLogs.Sound := ⟨rfl, by decide, by decide⟩

def mounted : LogFs :=
  { mounts := [['/', 'm']], dirs := [['/', 'm']], entries := ∅, file := ⟨[], 0⟩, outcomes := [] }

theorem mounted_volume : Volume twoLogs mounted :=
  ⟨by decide, fun h => by simp [strchr, twoLogs] at h, by decide⟩

def records : List LogEvent :=
  [.write [1#8, 1#8] [], .write [2#8, 2#8, 2#8] [], .restart, .write [3#8] []]

theorem log_standsFor_run_restarted : ∃ trace b,
    Run (step twoLogs) ⟨mounted, .notInitialized, 0, 0, 0⟩ trace b ∧
    trace.map Prod.snd = records.reverse ∧
    StandsFor twoLogs b
      ((actions trace).foldl (RotatingLog.act twoLogs_sound.limits) .empty) := by
  have hreplay : (replay (guarded Undisturbed (step twoLogs))
      ⟨mounted, .notInitialized, 0, 0, 0⟩ records).isSome = true := by
    decide +kernel
  obtain ⟨trace, b, run, undisturbed, labels⟩ := exists_allowed_run hreplay
  have fresh := fresh_standsFor mounted_volume rfl rfl (by decide)
  exact ⟨trace, b, run, labels, (log_standsFor_run twoLogs_sound run undisturbed fresh).1⟩

theorem StandsFor.holds (h : StandsFor config b log) :
    ∃ first, HoldsFrom config first log.segments b.fs.entries ∧
      log.segments.length ≤ config.filesLimit := by
  obtain ⟨_, hlog⟩ := h
  unfold RotatingLog.segments
  split at hlog
  next hcurrent =>
    have hdown : Down config b log.older := hlog
    obtain ⟨first, hholds, _⟩ := hdown.log
    rw [hcurrent, Option.toList_none, List.append_nil]
    exact ⟨first, hholds, hdown.limit⟩
  next segment hcurrent =>
    have hup : Up config b log.older segment := hlog
    obtain ⟨first, hcounts, _⟩ := hup.log
    have hlimit := hup.limit
    rw [hcurrent, Option.toList_some]
    refine ⟨first, hcounts.log, ?_⟩
    rw [List.length_append, List.length_singleton]
    exact_mod_cast hlimit

/-- The backend is not restarted, and its records are those of the log output's buffer. -/
def Buffered (_ : LogBackend) : LogEvent → Prop
  | .write data _ => data.length ≤ MAX_FLASH_WRITE_SIZE
  | _ => False

theorem retains_run (sound : config.Sound) (run : Run (step config) b₀ trace b)
    (buffered : AllSteps Buffered trace) :
    RotatingLog.Retains sound.limits MAX_FLASH_WRITE_SIZE (logged trace)
      ((actions trace).foldl (RotatingLog.act sound.limits) .empty) := by
  induction run with
  | start => exact RotatingLog.retains_empty _ _
  | @next trace b event b' _ _ ih =>
    obtain ⟨hevent, hrest⟩ := allSteps_cons.mp buffered
    have hactions : actions ((b, event) :: trace) = actions trace ++ actions [(b, event)] := by
      simp [actions]
    cases event with
    | write data outcomes =>
      have hlast : actions [(b, LogEvent.write data outcomes)] = [.write data] := rfl
      have hdata : written [Action.write data] = data := by simp [written]
      rw [logged, hactions, hlast, written_append, hdata, List.foldl_append]
      exact (ih hrest).write hevent
    | restart => exact absurd hevent (fun h => h)
    | remove name => exact absurd hevent (fun h => h)

/-- The files of the directory, put together from the oldest on, are the end of what has been
logged since the directory was empty, whatever the restarts; with records of the size of the
buffer and no restart they hold at least all but one of them full. -/
theorem logged_suffix_run (sound : config.Sound) (run : Run (step config) b₀ trace b)
    (undisturbed : AllSteps Undisturbed trace) (fresh : StandsFor config b₀ .empty) :
    ∃ first segments, HoldsFrom config first segments b.fs.entries ∧
      segments.length ≤ config.filesLimit ∧ segments.flatten <:+ logged trace ∧
      (AllSteps Buffered trace →
        min (logged trace).length
          ((config.filesLimit.toNat - 1) * (config.fileSize + 1 - MAX_FLASH_WRITE_SIZE)) ≤
            segments.flatten.length) := by
  obtain ⟨hrep, _⟩ := log_standsFor_run sound run undisturbed fresh
  obtain ⟨first, hholds, hlimit⟩ := StandsFor.holds hrep
  refine ⟨first, _, hholds, hlimit, ?_, ?_⟩
  · exact RotatingLog.contents_suffix sound.limits .empty (actions trace)
  · intro buffered
    exact (retains_run sound run buffered).length

instance (b : LogBackend) (event : LogEvent) : Decidable (Buffered b event) :=
  match event with
  | .write data _ => inferInstanceAs (Decidable (data.length ≤ MAX_FLASH_WRITE_SIZE))
  | .restart => isFalse (fun h => h)
  | .remove _ => isFalse (fun h => h)

/-- Two files of 300 bytes, so that one that is full holds 45 bytes at least. -/
def largerLogs : LogConfig := { twoLogs with fileSize := 300 }

theorem largerLogs_sound : largerLogs.Sound := ⟨rfl, by decide, by decide⟩

def bufferedRecords : List LogEvent :=
  [.write (List.replicate 200 1#8) [], .write (List.replicate 200 2#8) [],
    .write (List.replicate 100 3#8) [], .write (List.replicate 200 4#8) []]

theorem logged_suffix_run_buffered : ∃ trace b,
    Run (step largerLogs) ⟨mounted, .notInitialized, 0, 0, 0⟩ trace b ∧
    trace.map Prod.snd = bufferedRecords.reverse ∧
    ∃ first segments, HoldsFrom largerLogs first segments b.fs.entries ∧ segments.length ≤ 2 ∧
      segments.flatten <:+ logged trace ∧ min (logged trace).length 45 ≤ segments.flatten.length := by
  have hreplay : (replay (guarded (fun b event => Undisturbed b event ∧ Buffered b event)
      (step largerLogs)) ⟨mounted, .notInitialized, 0, 0, 0⟩ bufferedRecords).isSome = true := by
    decide +kernel
  obtain ⟨trace, b, run, allowed, labels⟩ := exists_allowed_run hreplay
  have volume : Volume largerLogs mounted :=
    ⟨mounted_volume.mounted, mounted_volume.reached, mounted_volume.ends⟩
  have fresh := fresh_standsFor volume rfl rfl (by decide)
  obtain ⟨first, segments, hholds, hlimit, hsuffix, hkept⟩ := logged_suffix_run largerLogs_sound run
    (fun p hp => (allowed p hp).1) fresh
  exact ⟨trace, b, run, labels, first, segments, hholds, Int.ofNat_le.mp hlimit, hsuffix,
    hkept (fun p hp => (allowed p hp).2)⟩

end LogBackend

end MyMouse
