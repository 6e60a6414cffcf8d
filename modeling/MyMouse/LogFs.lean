import Mathlib.Data.List.AList
import MyMouse.Errno

namespace MyMouse

abbrev FileName := List Char

/-- An entry of the directory of the logs: a file with what it holds, or a directory. -/
inductive DirEntry
  | file (content : List (BitVec 8))
  | dir
  deriving DecidableEq

/-- The directory of the logs; the order of its entries has no meaning. -/
abbrev LogDir := AList (fun _ : FileName => DirEntry)

/-- The errors a call of the file system may fail with for reasons of its own: -ENOENT says that
there is no such file, which the directory tells. -/
structure FsError where
  code : Int
  negative : code < 0
  notMissing : code ≠ -ENOENT

/-- How a call of the file system goes; `wrote` is a write the medium has room for only in part. -/
inductive FsOutcome
  | done
  | failed (error : FsError)
  | wrote (count : Nat)

/-- `struct fs_file_t`: the file a handle stands for and the position in it. -/
structure OpenFile where
  name : FileName
  pos : Nat

/-- The file system as the log backend sees it; `outcomes` is how its next calls go, and a call
beyond them does what it is asked. -/
structure LogFs where
  mounts : List (List Char)
  dirs : List (List Char)
  entries : LogDir
  file : OpenFile
  outcomes : List FsOutcome

namespace LogFs

variable (fs : LogFs)

def entry (name : FileName) : Option DirEntry := fs.entries.lookup name

/-- A call that changes nothing here: `fs_closedir`, `fs_close`, `fs_sync` and `fs_statvfs`. -/
def call : Int × LogFs :=
  match fs.outcomes with
  | [] => (0, fs)
  | .failed error :: outcomes => (error.code, { fs with outcomes })
  | _ :: outcomes => (0, { fs with outcomes })

def opendir (path : List Char) : Int × LogFs :=
  let (rc, fs) := fs.call
  if rc < 0 then (rc, fs) else if path ∈ fs.dirs then (0, fs) else (-ENOENT, fs)

def mkdir (path : List Char) : Int × LogFs :=
  let (rc, fs) := fs.call
  if rc < 0 then (rc, fs)
  else if path ∈ fs.dirs then (-EEXIST, fs) else (0, { fs with dirs := path :: fs.dirs })

def tell : Int × LogFs :=
  let (rc, fs) := fs.call
  if rc < 0 then (rc, fs) else (fs.file.pos, fs)

def unlink (name : FileName) : Int × LogFs :=
  let (rc, fs) := fs.call
  if rc < 0 then (rc, fs)
  else if name ∈ fs.entries then (0, { fs with entries := fs.entries.erase name })
  else (-ENOENT, fs)

/-- `fs_open` with `FS_O_CREATE | FS_O_WRITE`: a file that exists keeps what it holds. -/
def openFile (name : FileName) : Int × LogFs :=
  let (rc, fs) := fs.call
  if rc < 0 then (rc, fs)
  else match fs.entry name with
    | some .dir => (-EISDIR, fs)
    | some (.file _) => (0, { fs with file := ⟨name, 0⟩ })
    | none =>
      (0, { fs with entries := fs.entries.insert name (.file []), file := ⟨name, 0⟩ })

/-- What `data` comes to at the position of the handle; a file removed meanwhile keeps nothing. -/
def store (data : List (BitVec 8)) : LogFs :=
  let pos := fs.file.pos
  let file : OpenFile := { fs.file with pos := pos + data.length }
  match fs.entry fs.file.name with
  | some (.file content) =>
    let content := content.take pos ++ data ++ content.drop (pos + data.length)
    { fs with file, entries := fs.entries.insert fs.file.name (.file content) }
  | _ => { fs with file }

def write (data : List (BitVec 8)) : Int × LogFs :=
  match fs.outcomes with
  | [] => (data.length, fs.store data)
  | .failed error :: outcomes => (error.code, { fs with outcomes })
  | .wrote count :: outcomes =>
    let data := data.take count
    (data.length, { fs with outcomes }.store data)
  | .done :: outcomes => (data.length, { fs with outcomes }.store data)

end LogFs

end MyMouse
