import MyMouse.LogFs

namespace MyMouse

def MAX_FLASH_WRITE_SIZE : Nat := 256
def MAX_FILE_NUMERAL : Int := 9999
def FILE_NUMERAL_LEN : Nat := 4

/-- The options of the backend, CONFIG_LOG_BACKEND_MY_FS_DIR, _FILE_PREFIX, _FILE_SIZE,
_OVERWRITE and _FILES_LIMIT. -/
structure LogConfig where
  dir : List Char
  filePrefix : FileName
  fileSize : Nat
  overwrite : Bool
  filesLimit : Int

/-- `isspace` in the C locale. -/
def isSpace (c : Char) : Bool := c.toNat = 32 ∨ 9 ≤ c.toNat ∧ c.toNat ≤ 13

def atoiDigits : Int → List Char → Int
  | value, [] => value
  | value, c :: cs =>
    if c.isDigit then atoiDigits (value * 10 + (c.toNat - 48 : Nat)) cs else value

def atoi (s : List Char) : Int :=
  match s.dropWhile isSpace with
  | [] => 0
  | c :: cs =>
    if c = '-' then -atoiDigits 0 cs else if c = '+' then atoiDigits 0 cs else atoiDigits 0 (c :: cs)

/-- `%04d` for a number of at most four digits. -/
def formatNumeral (num : Int) : List Char :=
  [num / 1000, num / 100, num / 10, num].map fun d => Nat.digitChar (d % 10).toNat

/-- The last component of the path `"%s/%s%04d"`. -/
def logFileName (config : LogConfig) (num : Int) : FileName :=
  config.filePrefix ++ formatNumeral num

def getLogFileId (config : LogConfig) (name : FileName) : DirEntry → Int
  | .dir => -1
  | .file _ =>
    let logPrefixLen := config.filePrefix.length
    if name.length ≠ logPrefixLen + FILE_NUMERAL_LEN then -1
    else if name.take logPrefixLen ≠ config.filePrefix then -1
    else
      let num := atoi (name.drop logPrefixLen)
      if num ≤ MAX_FILE_NUMERAL ∧ 0 ≤ num then num else -1

inductive BackendFsState
  | notInitialized
  | corrupted
  | ok
  deriving DecidableEq

/-- The static variables of the backend with the file system they stand in for. -/
structure LogBackend where
  fs : LogFs
  backendState : BackendFsState
  fileCtr : Int
  newest : Int
  oldest : Int

def checkLogVolumenAvailable (config : LogConfig) : List (List Char) → Int
  | [] => -ENOENT
  | name :: mounts =>
    if config.dir.take name.length = name then 0 else checkLogVolumenAvailable config mounts

/-- `strchr(s + start, c) - s`. -/
def strchr (s : List Char) (start : Nat) (c : Char) : Option Nat :=
  ((s.drop start).findIdx? (· = c)).map (start + ·)

/-- The loop of `create_log_dir`, with `next` the separator it stands at. -/
def createLogDirFrom (path : List Char) : Nat → Nat → LogFs → Int × LogFs
  | 0, _, fs => (0, fs)
  | turns + 1, next, fs =>
    let last := path.length - 1
    if last < next + 1 then (0, fs)
    else
      let (next, len) := match strchr path (next + 1) '/' with
        | none => (last, last + 1)
        | some next => (next, next)
      let wPath := path.take len
      let (rc, fs) := fs.opendir wPath
      let (rc, fs) := if rc ≠ 0 then fs.mkdir wPath else (rc, fs)
      if rc ≠ 0 then (rc, fs)
      else
        let (rc, fs) := fs.call
        if rc ≠ 0 then (rc, fs) else createLogDirFrom path turns next fs

def createLogDir (path : List Char) (fs : LogFs) : Int × LogFs :=
  match strchr path 1 '/' with
  | none => (0, fs)
  | some next => createLogDirFrom path path.length next fs

/-- A loop over the directory with `fs_readdir`, up to its end or an error. -/
def readEntries {α : Type} (turn : α → FileName → DirEntry → α) :
    List (Sigma fun _ : FileName => DirEntry) → α → LogFs → Int × α × LogFs
  | [], acc, fs =>
    let (rc, fs) := fs.call
    (rc, acc, fs)
  | ⟨name, entry⟩ :: entries, acc, fs =>
    let (rc, fs) := fs.call
    if rc < 0 then (rc, acc, fs) else readEntries turn entries (turn acc name entry) fs

/-- The loop of `check_log_file_exist`. -/
def findLogFile (config : LogConfig) (num : Int) :
    List (Sigma fun _ : FileName => DirEntry) → LogFs → Int × LogFs
  | [], fs =>
    let (rc, fs) := fs.call
    (if rc < 0 then - EIO else 0, fs)
  | ⟨name, entry⟩ :: entries, fs =>
    let (rc, fs) := fs.call
    if rc < 0 then (- EIO, fs)
    else if getLogFileId config name entry = num then (1, fs)
    else findLogFile config num entries fs

def checkLogFileExist (config : LogConfig) (num : Int) (fs : LogFs) : Int × LogFs :=
  let (rc, fs) := fs.opendir config.dir
  if rc ≠ 0 then (- EIO, fs)
  else
    let (rc, fs) := findLogFile config num fs.entries.entries fs
    let (_, fs) := fs.call
    (rc, fs)

/-- The number after `num`. -/
def nextNumeral (num : Int) : Int :=
  if num + 1 > MAX_FILE_NUMERAL then 0 else num + 1

/-- What the first loop of `allocate_new_file` gathers. -/
structure LogScan where
  max : Int
  min : Int
  fileCtr : Int

def scanTurn (config : LogConfig) (scan : LogScan) (name : FileName) (entry : DirEntry) : LogScan :=
  let fileNum := getLogFileId config name entry
  if 0 ≤ fileNum then
    { max := if fileNum > scan.max then fileNum else scan.max
      min := if fileNum < scan.min then fileNum else scan.min
      fileCtr := scan.fileCtr + 1 }
  else scan

/-- The turns of the second loop, on `newest` and `oldest`. -/
def wrappedTurn (config : LogConfig) (min max : Int) (ends : Int × Int) (name : FileName)
    (entry : DirEntry) : Int × Int :=
  let fileNum := getLogFileId config name entry
  (if fileNum < min + config.filesLimit ∧ ends.1 < fileNum then fileNum else ends.1,
    if fileNum > max - config.filesLimit ∧ ends.2 > fileNum then fileNum else ends.2)

/-- The branch of `allocate_new_file` that searches for the last used log number. -/
def searchLastUsed (config : LogConfig) (b : LogBackend) : Int × LogBackend :=
  let (rc, fs) := b.fs.opendir config.dir
  let (rc, scan, fs) := if 0 ≤ rc then
      readEntries (scanTurn config) fs.entries.entries ⟨0, MAX_FILE_NUMERAL, b.fileCtr⟩ fs
    else (rc, ⟨0, MAX_FILE_NUMERAL, b.fileCtr⟩, fs)
  let (rc, newest, oldest, fs) :=
    if scan.fileCtr > 1 ∧ scan.max - scan.min > 2 * config.filesLimit then
      let (_, fs) := fs.call
      let (rc, fs) := fs.opendir config.dir
      let (rc, ends, fs) := if rc = 0 then
          readEntries (wrappedTurn config scan.min scan.max) fs.entries.entries
            (scan.min, scan.max) fs
        else (rc, (scan.min, scan.max), fs)
      (rc, ends.1, ends.2, fs)
    else (rc, scan.max, scan.min, fs)
  let (_, fs) := fs.call
  (rc, { b with fs, fileCtr := scan.fileCtr, newest, oldest })

/-- The loop of `del_oldest_log`. -/
def delOldestFrom (config : LogConfig) : Nat → LogBackend → Option (Int × LogBackend)
  | 0, _ => none
  | turns + 1, b =>
    let (rc, fs) := b.fs.unlink (logFileName config b.oldest)
    if rc = 0 ∨ rc = -ENOENT then
      let b := { b with fs, oldest := nextNumeral b.oldest }
      if rc = 0 then some (rc, { b with fileCtr := b.fileCtr - 1 })
      else delOldestFrom config turns b
    else some (rc, { b with fs })

/-- `none` where the loop does not end: with nothing to fail and nothing found it has come back
to the number it began with. -/
def delOldestLog (config : LogConfig) (b : LogBackend) : Option (Int × LogBackend) :=
  delOldestFrom config (b.fs.outcomes.length + MAX_FILE_NUMERAL.toNat + 1) b

/-- The loop of `allocate_new_file` that keeps the number of files below the limit. -/
def makeRoomFrom (config : LogConfig) : Nat → LogBackend → Option (Int × LogBackend)
  | 0, b => some (0, b)
  | turns + 1, b =>
    if b.fileCtr ≥ config.filesLimit then
      if config.overwrite then
        match delOldestLog config b with
        | none => none
        | some (rc, b) =>
          if rc < 0 then some (rc, b)
          else
            let (rc, fs) := b.fs.call
            if rc < 0 then some (rc, { b with fs })
            else makeRoomFrom config turns { b with fs }
      else some (-ENOSPC, b)
    else some (0, b)

/-- Every turn that goes on takes one from `file_ctr`. -/
def makeRoom (config : LogConfig) (b : LogBackend) : Option (Int × LogBackend) :=
  makeRoomFrom config (b.fileCtr + 1 - config.filesLimit).toNat b

/-- The rest of `allocate_new_file`, once the number of the file is known. -/
def openNumbered (config : LogConfig) (currFileNum : Int) (b : LogBackend) :
    Option (Int × LogBackend) :=
  let (_, fs) := b.fs.call
  match makeRoom config { b with fs } with
  | none => none
  | some (rc, b) =>
    if rc < 0 then some (rc, b)
    else
      let (rc, fs) := b.fs.openFile (logFileName config currFileNum)
      if rc < 0 then some (rc, { b with fs })
      else some (rc, { b with fs, fileCtr := b.fileCtr + 1, newest := currFileNum })

def allocateNewFile (config : LogConfig) (b : LogBackend) : Option (Int × LogBackend) :=
  if b.backendState = .notInitialized then
    let (rc, b) := searchLastUsed config b
    if rc < 0 then some (rc, b)
    else
      let currFileNum := if b.fileCtr ≥ 1 then nextNumeral b.newest else b.newest
      openNumbered config currFileNum { b with backendState := .ok }
  else
    let (_, fs) := b.fs.call
    openNumbered config (nextNumeral b.newest) { b with fs }

def LogBackend.onError (length : Int) (b : LogBackend) : Int × LogBackend :=
  (length, { b with backendState := .corrupted })

/-- `write_log_to_file` in a backend that is up. -/
def writeRecord (config : LogConfig) (data : List (BitVec 8)) (b : LogBackend) :
    Option (Int × LogBackend) :=
  let length : Int := data.length
  let (size, fs) := b.fs.tell
  let b := { b with fs }
  if size < 0 then some (length, { b with backendState := .corrupted })
  else
    match (if size + length > config.fileSize then allocateNewFile config b else some (0, b)) with
    | none => none
    | some (rc, b) =>
      if rc < 0 then some (b.onError length)
      else
        let (rc, fs) := b.fs.write data
        let b := { b with fs }
        if rc ≥ 0 then
          if config.overwrite ∧ rc ≠ length then (delOldestLog config b).map fun (_, b) => (0, b)
          else
            let (synced, fs) := b.fs.call
            if synced < 0 then some ({ b with fs }.onError rc) else some (rc, { b with fs })
        else
          let (rc, fs) := checkLogFileExist config b.newest b.fs
          let b := { b with fs }
          match (if rc = 0 then
              -- the file was lost somehow
              allocateNewFile config { b with fileCtr := b.fileCtr - 1 }
            else some (rc, b)) with
          | none => none
          | some (rc, b) =>
            if rc < 0 then some (b.onError length)
            else
              let (synced, fs) := b.fs.call
              if synced < 0 then some ({ b with fs }.onError 0) else some (0, { b with fs })

/-- The branch of `write_log_to_file` for a backend that is not initialized, on a volume that is
mounted. -/
def initBackend (config : LogConfig) (b : LogBackend) : Option LogBackend :=
  let (rc, fs) := createLogDir config.dir b.fs
  let b := { b with fs }
  match (if rc = 0 then allocateNewFile config b else some (rc, b)) with
  | none => none
  | some (rc, b) => some { b with backendState := if rc ≠ 0 then .corrupted else .ok }

def writeLogToFile (config : LogConfig) (data : List (BitVec 8)) (b : LogBackend) :
    Option (Int × LogBackend) :=
  if b.backendState = .notInitialized ∧ checkLogVolumenAvailable config b.fs.mounts ≠ 0 then
    some (data.length, b)
  else
    match (if b.backendState = .notInitialized then initBackend config b else some b) with
    | none => none
    | some b =>
      if b.backendState = .ok then writeRecord config data b else some (data.length, b)

end MyMouse
