import MyMouse.CString
import MyMouse.Errno
import MyMouse.Simulation
import Mathlib.Algebra.Group.Nat.Defs

namespace MyMouse

open CStrings Machines

def MAX_PATH_LEN : Nat := 128

inductive StatResult
  | missing
  | file
  | dir
  deriving DecidableEq

namespace FsShell

/-- The index of `path[len - 1]` for a pointer to the element `first`; a `size_t` has 32 bits. -/
def lastIndex (first len : Nat) : Nat := (first + (len + (2 ^ 32 - 1)) % 2 ^ 32) % 2 ^ 32

/-- Every caller has an array of `MAX_PATH_LEN` characters for the path. -/
def createAbsPath (name : List Char) (path : CharBuffer) (len : Nat) (cwd : CharBuffer) :
    Option CharBuffer :=
  if name.head? = some '/' then do
    let path ← strncpy MAX_PATH_LEN path 0 name len
    storeChar MAX_PATH_LEN path (lastIndex 0 len) nul
  else if cwd 1 = nul then do
    let path ← storeChar MAX_PATH_LEN path 0 '/'
    let len := len - 1
    let path ← strncpy MAX_PATH_LEN path 1 name len
    storeChar MAX_PATH_LEN path (lastIndex 1 len) nul
  else do
    let copied := ((List.range len).map cwd).takeWhile (· ≠ nul)
    let path ← strncpy MAX_PATH_LEN path 0 copied len
    let path ← storeChar MAX_PATH_LEN path (lastIndex 0 len) nul
    let string ← stringAt MAX_PATH_LEN path
    let plen := string.length
    if plen < len then do
      let path ← storeChar MAX_PATH_LEN path plen '/'
      let len := len - (plen + 1)
      let path ← strncpy MAX_PATH_LEN path (plen + 1) name len
      storeChar MAX_PATH_LEN path (lastIndex (plen + 1) len) nul
    else some path

/-- `strcpy(cwd, "/")`. -/
def cdRoot (cwd : CharBuffer) : Option CharBuffer := do
  let cwd ← storeChar MAX_PATH_LEN cwd 0 '/'
  storeChar MAX_PATH_LEN cwd 1 nul

/-- `strrchr(string, '/')`. -/
def lastSlash (string : List Char) : Option Nat :=
  (string.reverse.findIdx? (· = '/')).map (string.length - 1 - ·)

/-- `cmd_cd` for `..`. -/
def cdParent (cwd : CharBuffer) : Option CharBuffer := do
  let string ← stringAt MAX_PATH_LEN cwd
  match lastSlash string with
  | none | some 0 => cdRoot cwd
  | some prev => storeChar MAX_PATH_LEN cwd prev nul

structure CdReply where
  err : Int
  error : Option (List Char)
  deriving DecidableEq

/-- `path` is what the stack holds where the array of the path comes to be, and `stat` what
`fs_stat` finds at a path. -/
structure CdCall where
  stat : List Char → StatResult
  path : CharBuffer
  args : List CString

def cmdCd (call : CdCall) (cwd : CharBuffer) : Option (CdReply × CharBuffer) :=
  match call.args with
  | [] => (cdRoot cwd).map (⟨0, none⟩, ·)
  | name :: _ =>
    if name.1 = ['.', '.'] then (cdParent cwd).map (⟨0, none⟩, ·)
    else do
      let path ← createAbsPath name.1 call.path MAX_PATH_LEN cwd
      let string ← stringAt MAX_PATH_LEN path
      match call.stat string with
      | .missing => some (⟨- ENOEXEC, some (string ++ " doesn't exist".toList)⟩, cwd)
      | .file => some (⟨- ENOEXEC, some (string ++ " is not a directory".toList)⟩, cwd)
      | .dir => do
        let cwd ← strncpy MAX_PATH_LEN cwd 0 string MAX_PATH_LEN
        let cwd ← storeChar MAX_PATH_LEN cwd (MAX_PATH_LEN - 1) nul
        some (⟨0, none⟩, cwd)

/-- `static char cwd[MAX_PATH_LEN] = "/"`. -/
def start : CharBuffer := Function.update (fun _ => nul) 0 '/'

/-- No reply when the command leaves an array. -/
def step (cwd : CharBuffer) (call : CdCall) : Option CdReply × CharBuffer :=
  match cmdCd call cwd with
  | some (reply, cwd) => (some reply, cwd)
  | none => (none, cwd)

/-- The path that is meant by a name. -/
def absPath (dir name : List Char) : List Char :=
  if name.head? = some '/' then name
  else if dir = ['/'] then '/' :: name
  else dir ++ '/' :: name

/-- What of a path fits the array. -/
def fitted (path : List Char) : List Char := path.take (MAX_PATH_LEN - 1)

def parent (dir : List Char) : List Char :=
  match lastSlash dir with
  | none | some 0 => ['/']
  | some prev => dir.take prev

/-- What the command means for the working directory. -/
def cd (dir : List Char) (call : CdCall) : Option CdReply × List Char :=
  match call.args with
  | [] => (some ⟨0, none⟩, ['/'])
  | name :: _ =>
    if name.1 = ['.', '.'] then (some ⟨0, none⟩, parent dir)
    else
      let path := fitted (absPath dir name.1)
      match call.stat path with
      | .missing => (some ⟨- ENOEXEC, some (path ++ " doesn't exist".toList)⟩, dir)
      | .file => (some ⟨- ENOEXEC, some (path ++ " is not a directory".toList)⟩, dir)
      | .dir => (some ⟨0, none⟩, path)

/-- The array holds a path from the root. -/
structure Maintained (cwd : CharBuffer) (dir : List Char) : Prop where
  holds : Holds MAX_PATH_LEN cwd dir
  root : dir.head? = some '/'

variable {cwd path : CharBuffer} {dir name : List Char}

theorem fitted_getD (path : List Char) (i : Nat) :
    (fitted path).getD i nul = if i < MAX_PATH_LEN - 1 then path.getD i nul else nul :=
  getD_take path (MAX_PATH_LEN - 1) i nul

theorem fitted_length (path : List Char) : (fitted path).length < MAX_PATH_LEN := by
  have hpos : 0 < MAX_PATH_LEN := by decide
  have hle : (fitted path).length ≤ MAX_PATH_LEN - 1 := List.length_take_le _ _
  omega

/-- An array that reads as a path as far as it fits holds what fits of it. -/
theorem holds_fitted {buffer : CharBuffer} {path : List Char} (hnul : nul ∉ path)
    (hchars : ∀ i < MAX_PATH_LEN,
      buffer i = if i < MAX_PATH_LEN - 1 then path.getD i nul else nul) :
    Holds MAX_PATH_LEN buffer (fitted path) := by
  refine ⟨fitted_length path, fun hmem => hnul (List.mem_of_mem_take hmem), ?_⟩
  intro i hi
  rw [fitted_getD]
  exact hchars i (Nat.lt_of_le_of_lt hi (fitted_length path))

theorem fitted_of_holds (h : Holds MAX_PATH_LEN cwd dir) : fitted dir = dir :=
  List.take_of_length_le (Nat.le_sub_one_of_lt h.fits)

theorem lastIndex_eq {first len : Nat} (h : first + len = MAX_PATH_LEN) :
    lastIndex first len = MAX_PATH_LEN - 1 := by
  unfold MAX_PATH_LEN at h ⊢
  unfold lastIndex
  omega

theorem maintained_root (hslash : cwd 0 = '/') (hend : cwd 1 = nul) : Maintained cwd ['/'] := by
  refine ⟨⟨by decide, by decide, ?_⟩, rfl⟩
  intro i hi
  cases i with
  | zero => exact hslash
  | succ i =>
    have hzero : i = 0 := Nat.le_zero.mp (Nat.le_of_succ_le_succ hi)
    subst hzero
    exact hend

theorem Maintained.length_pos (h : Maintained cwd dir) : 0 < dir.length := by
  cases hdir : dir with
  | nil =>
    have hroot := h.root
    rw [hdir] at hroot
    cases hroot
  | cons => exact Nat.succ_pos _

theorem Maintained.second_iff (h : Maintained cwd dir) : cwd 1 = nul ↔ dir = ['/'] := by
  cases hdir : dir with
  | nil =>
    have hpos := h.length_pos
    rw [hdir] at hpos
    cases hpos
  | cons first rest =>
    have hfirst : first = '/' := by
      have hroot := h.root
      rw [hdir] at hroot
      exact Option.some.inj hroot
    have hsecond := h.holds.chars 1 h.length_pos
    rw [hdir] at hsecond
    cases rest with
    | nil => exact iff_of_true hsecond (by rw [hfirst])
    | cons second rest =>
      refine iff_of_false ?_ (by simp)
      have hne := h.holds.noNul
      rw [hdir] at hne
      intro heq
      rw [hsecond] at heq
      exact hne (heq ▸ by simp)

/-- `strncpy` and the end that is written after it. -/
theorem copied_ended (first len : Nat) (hlen : first + len = MAX_PATH_LEN) (buffer : CharBuffer)
    (src : List Char) :
    ∃ ended, ((strncpy MAX_PATH_LEN buffer first src len).bind fun path =>
        storeChar MAX_PATH_LEN path (lastIndex first len) nul) = some ended ∧
      ∀ i < MAX_PATH_LEN, ended i =
        if i < MAX_PATH_LEN - 1 then if first ≤ i then src.getD (i - first) nul else buffer i
        else nul := by
  have hpos : 0 < MAX_PATH_LEN := by decide
  have hend : MAX_PATH_LEN - 1 < MAX_PATH_LEN := Nat.sub_lt hpos Nat.one_pos
  obtain ⟨copied, hcopy, hcopied⟩ := strncpy_spec buffer src (Nat.le_of_eq hlen)
  obtain ⟨ended, hstore, hended⟩ := storeChar_spec copied nul hend
  rw [lastIndex_eq hlen]
  refine ⟨ended, ?_, ?_⟩
  · rw [hcopy, Option.bind_some, hstore]
  · intro i hi
    rw [hended, hcopied]
    by_cases hlast : i = MAX_PATH_LEN - 1
    · have hnot : ¬ i < MAX_PATH_LEN - 1 := by omega
      rw [if_pos hlast, if_neg hnot]
    · have hlt : i < MAX_PATH_LEN - 1 := by omega
      have hinside : first ≤ i ∧ i < first + len ↔ first ≤ i := by
        rw [hlen]
        exact and_iff_left hi
      rw [if_neg hlast, if_pos hlt]
      simp only [hinside]

theorem createAbsPath_absolute (habs : name.head? = some '/') (hname : nul ∉ name) :
    ∃ result, createAbsPath name path MAX_PATH_LEN cwd = some result ∧
      Holds MAX_PATH_LEN result (fitted name) := by
  obtain ⟨ended, hended, hchars⟩ := copied_ended 0 MAX_PATH_LEN (Nat.zero_add _) path name
  refine ⟨ended, ?_, holds_fitted hname ?_⟩
  · unfold createAbsPath
    rw [if_pos habs]
    exact hended
  · intro i hi
    rw [hchars i hi, if_pos (Nat.zero_le i), Nat.sub_zero]

theorem createAbsPath_root (hrel : name.head? ≠ some '/') (hname : nul ∉ name)
    (hcwd : cwd 1 = nul) :
    ∃ result, createAbsPath name path MAX_PATH_LEN cwd = some result ∧
      Holds MAX_PATH_LEN result (fitted ('/' :: name)) := by
  have hpos : 0 < MAX_PATH_LEN := by decide
  obtain ⟨slash, hslash, hfirst⟩ := storeChar_spec path '/' hpos
  obtain ⟨ended, hended, hchars⟩ :=
    copied_ended 1 (MAX_PATH_LEN - 1) (Nat.add_sub_of_le hpos) slash name
  refine ⟨ended, ?_, holds_fitted ?_ ?_⟩
  · unfold createAbsPath
    rw [if_neg hrel, if_pos hcwd, hslash]
    exact hended
  · exact List.not_mem_cons_of_ne_of_not_mem (by decide) hname
  · intro i hi
    rw [hchars i hi, hfirst]
    cases i with
    | zero => rfl
    | succ i => rfl

/-- A working directory that fills the array leaves no room: the end takes the place of the
slash. -/
theorem createAbsPath_below (hrel : name.head? ≠ some '/') (hname : nul ∉ name)
    (h : Holds MAX_PATH_LEN cwd dir) (hcwd : cwd 1 ≠ nul) :
    ∃ result, createAbsPath name path MAX_PATH_LEN cwd = some result ∧
      Holds MAX_PATH_LEN result (fitted (dir ++ '/' :: name)) := by
  obtain ⟨copy, hcopy, hcopied⟩ := copied_ended 0 MAX_PATH_LEN (Nat.zero_add _) path dir
  have hcopyHolds : Holds MAX_PATH_LEN copy dir := by
    rw [← fitted_of_holds h]
    refine holds_fitted h.noNul ?_
    intro i hi
    rw [hcopied i hi, if_pos (Nat.zero_le i), Nat.sub_zero]
  obtain ⟨slash, hslash, hslashed⟩ := storeChar_spec copy '/' h.fits
  obtain ⟨ended, hended, hchars⟩ := copied_ended (dir.length + 1)
    (MAX_PATH_LEN - (dir.length + 1)) (Nat.add_sub_of_le h.fits) slash name
  have hslashAt : ∀ i, (dir ++ '/' :: name).getD i nul =
      if dir.length + 1 ≤ i then name.getD (i - (dir.length + 1)) nul else slash i := by
    intro i
    rw [hslashed]
    rcases Nat.lt_trichotomy i dir.length with hlow | hat | hhigh
    · rw [if_neg (by omega), if_neg (by omega), List.getD_append _ _ _ _ hlow,
        hcopyHolds.chars i hlow.le]
    · rw [if_neg (by omega), if_pos hat, hat, List.getD_append_right _ _ _ _ le_rfl, Nat.sub_self]
      rfl
    · obtain ⟨k, rfl⟩ := Nat.exists_eq_add_of_le hhigh
      have hk : dir.length + 1 + k - dir.length = k + 1 := by omega
      rw [if_pos (by omega), List.getD_append_right _ _ _ _ (by omega), hk, Nat.add_sub_cancel_left]
      rfl
  refine ⟨ended, ?_, holds_fitted ?_ ?_⟩
  · unfold createAbsPath
    rw [if_neg hrel, if_neg hcwd, h.takeWhile]
    simp only [Option.bind_eq_bind]
    rw [← Option.bind_assoc, hcopy, Option.bind_some, hcopyHolds.stringAt, Option.bind_some,
      if_pos h.fits, hslash, Option.bind_some]
    exact hended
  · intro hmem
    rcases List.mem_append.mp hmem with hleft | hright
    · exact h.noNul hleft
    · exact List.not_mem_cons_of_ne_of_not_mem (by decide) hname hright
  · intro i hi
    rw [hchars i hi, hslashAt]

/-- The path that is made is the one that is meant, as far as it fits. -/
theorem createAbsPath_maintained (path : CharBuffer) (h : Maintained cwd dir) (hname : nul ∉ name) :
    ∃ result, createAbsPath name path MAX_PATH_LEN cwd = some result ∧
      Maintained result (fitted (absPath dir name)) := by
  have hmax : MAX_PATH_LEN - 1 = 126 + 1 := rfl
  unfold absPath
  split
  next habs =>
    obtain ⟨result, hresult, hholds⟩ := createAbsPath_absolute habs hname
    refine ⟨result, hresult, hholds, ?_⟩
    rw [fitted, hmax, List.head?_take, if_neg (Nat.succ_ne_zero _)]
    exact habs
  next hrel =>
    split
    next hdir =>
      obtain ⟨result, hresult, hholds⟩ := createAbsPath_root hrel hname (h.second_iff.mpr hdir)
      exact ⟨result, hresult, hholds, by rw [fitted, hmax]; rfl⟩
    next hdir =>
      obtain ⟨result, hresult, hholds⟩ :=
        createAbsPath_below hrel hname h.holds (mt h.second_iff.mp hdir)
      refine ⟨result, hresult, hholds, ?_⟩
      rw [fitted, hmax, List.head?_take, if_neg (Nat.succ_ne_zero _), List.head?_append, h.root]
      rfl

theorem cdRoot_maintained (cwd : CharBuffer) :
    ∃ result, cdRoot cwd = some result ∧ Maintained result ['/'] := by
  obtain ⟨slash, hslash, hfirst⟩ := storeChar_spec cwd '/' (show 0 < MAX_PATH_LEN by decide)
  obtain ⟨ended, hended, hsecond⟩ := storeChar_spec slash nul (show 1 < MAX_PATH_LEN by decide)
  refine ⟨ended, ?_, maintained_root ?_ ?_⟩
  · unfold cdRoot
    rw [hslash]
    exact hended
  · rw [hsecond, hfirst]
    rfl
  · rw [hsecond]
    rfl

theorem lastSlash_lt {prev : Nat} (h : lastSlash dir = some prev) : prev < dir.length := by
  obtain ⟨k, hk, hprev⟩ := Option.map_eq_some_iff.mp h
  have hlt : k < dir.reverse.length := (List.findIdx?_eq_some_iff_getElem.mp hk).1
  rw [List.length_reverse] at hlt
  omega

/-- Ending the string at a slash keeps what stands before it. -/
theorem Maintained.ended (h : Maintained cwd dir) {prev : Nat} (hlt : prev < dir.length)
    (hpos : 0 < prev) :
    ∃ result, storeChar MAX_PATH_LEN cwd prev nul = some result ∧
      Maintained result (dir.take prev) := by
  obtain ⟨ended, hended, hchars⟩ := storeChar_spec cwd nul (hlt.trans h.holds.fits)
  have hlength : (dir.take prev).length = prev := List.length_take_of_le hlt.le
  refine ⟨ended, hended, ⟨?_, fun hmem => h.holds.noNul (List.mem_of_mem_take hmem), ?_⟩, ?_⟩
  · rw [hlength]
    exact hlt.trans h.holds.fits
  · intro i hi
    rw [hlength] at hi
    rw [hchars, getD_take]
    by_cases hat : i = prev
    · rw [if_pos hat, if_neg (by omega)]
    · rw [if_neg hat, if_pos (by omega), h.holds.chars i (by omega)]
  · rw [List.head?_take, if_neg hpos.ne']
    exact h.root

theorem cdParent_maintained (h : Maintained cwd dir) :
    ∃ result, cdParent cwd = some result ∧ Maintained result (parent dir) := by
  unfold cdParent parent
  simp only [h.holds.stringAt, Option.bind_eq_bind, Option.bind_some]
  cases hprev : lastSlash dir with
  | none => exact cdRoot_maintained cwd
  | some prev =>
    cases prev with
    | zero => exact cdRoot_maintained cwd
    | succ prev => exact h.ended (lastSlash_lt hprev) (Nat.succ_pos prev)

/-- The copy of a path over another one. -/
theorem copied_maintained {path : CharBuffer} (h : Maintained path dir) (cwd : CharBuffer) :
    ∃ result, ((strncpy MAX_PATH_LEN cwd 0 dir MAX_PATH_LEN).bind fun cwd =>
      storeChar MAX_PATH_LEN cwd (MAX_PATH_LEN - 1) nul) = some result ∧ Maintained result dir := by
  obtain ⟨ended, hended, hchars⟩ := copied_ended 0 MAX_PATH_LEN (Nat.zero_add _) cwd dir
  rw [lastIndex_eq (Nat.zero_add _)] at hended
  refine ⟨ended, hended, ?_, h.root⟩
  rw [← fitted_of_holds h.holds]
  refine holds_fitted h.holds.noNul ?_
  intro i hi
  rw [hchars i hi, if_pos (Nat.zero_le i), Nat.sub_zero]

theorem cmdCd_maintained (call : CdCall) (h : Maintained cwd dir) :
    ∃ reply result, cmdCd call cwd = some (reply, result) ∧ (cd dir call).1 = some reply ∧
      Maintained result (cd dir call).2 := by
  unfold cmdCd cd
  cases hargs : call.args with
  | nil =>
    obtain ⟨result, hresult, hroot⟩ := cdRoot_maintained cwd
    exact ⟨⟨0, none⟩, result, by simp only [hresult, Option.map_some], rfl, hroot⟩
  | cons name rest =>
    dsimp only
    split
    next =>
      obtain ⟨result, hresult, hparent⟩ := cdParent_maintained h
      exact ⟨⟨0, none⟩, result, by rw [hresult, Option.map_some], rfl, hparent⟩
    next =>
      obtain ⟨path, hpath, hmade⟩ :=
        createAbsPath_maintained call.path h name.2
      simp only [hpath, Option.bind_eq_bind, Option.bind_some, hmade.holds.stringAt]
      cases call.stat (fitted (absPath dir name.1)) with
      | missing => exact ⟨_, cwd, rfl, rfl, h⟩
      | file => exact ⟨_, cwd, rfl, rfl, h⟩
      | dir =>
        obtain ⟨result, hresult, hcopied⟩ := copied_maintained hmade cwd
        refine ⟨⟨0, none⟩, result, ?_, rfl, hcopied⟩
        dsimp only
        rw [← Option.bind_assoc, hresult, Option.bind_some]

/-- What the array holds is the working directory as the commands mean it. -/
theorem cd_simulates : Simulates step cd (fun _ _ => True) Maintained := by
  intro cwd dir call h _
  obtain ⟨reply, result, hrun, hreply, hresult⟩ := cmdCd_maintained call h
  unfold step
  rw [hrun]
  exact ⟨hreply.symm, hresult⟩

theorem maintained_after (calls : List CdCall) :
    Maintained (after step start calls) (after cd ['/'] calls) :=
  cd_simulates.related_after (maintained_root rfl rfl) (admits_of_forall cd fun _ _ => trivial)

/-- Every command of a session stays within the arrays and answers as it is meant to, and the
array of the working directory then holds the path that is meant, which begins with a slash. -/
theorem cd_session (calls : List CdCall) :
    results step start calls = results cd ['/'] calls ∧
      Maintained (after step start calls) (after cd ['/'] calls) :=
  ⟨cd_simulates.results_eq (maintained_root rfl rfl) (admits_of_forall cd fun _ _ => trivial),
    maintained_after calls⟩

theorem lastSlash_below (dir : List Char) (hname : '/' ∉ name) :
    lastSlash (dir ++ '/' :: name) = some dir.length := by
  have hbefore : name.reverse.findIdx? (· = '/') = none := by
    rw [List.findIdx?_eq_none_iff]
    intro c hc
    exact decide_eq_false fun heq => hname (heq ▸ List.mem_reverse.mp hc)
  have hreverse : (dir ++ '/' :: name).reverse = name.reverse ++ '/' :: dir.reverse := by simp
  have hfirst : ('/' :: dir.reverse).findIdx? (· = '/') = some 0 := rfl
  unfold lastSlash
  rw [hreverse, List.findIdx?_append, hbefore, hfirst]
  simp only [Option.map_some, Option.none_or, List.length_append, List.length_cons,
    List.length_reverse, Option.some.injEq]
  omega

theorem parent_absPath (h : Maintained cwd dir) (hname : '/' ∉ name) :
    parent (absPath dir name) = dir := by
  have hrel : name.head? ≠ some '/' := fun hhead => hname (List.mem_of_mem_head? hhead)
  unfold absPath
  rw [if_neg hrel]
  by_cases hdir : dir = ['/']
  · have hlast : lastSlash ('/' :: name) = some 0 := lastSlash_below [] hname
    rw [if_pos hdir, hdir, parent]
    simp only [hlast]
  · obtain ⟨n, hlength⟩ := Nat.exists_eq_succ_of_ne_zero h.length_pos.ne'
    simp only [if_neg hdir, parent, lastSlash_below dir hname, hlength]
    rw [← hlength, List.take_left]

/-- A name that fits and is a directory becomes the working directory. -/
theorem cd_there {there : CdCall} {name : CString} (hargs : there.args = [name])
    (hdots : name.1 ≠ ['.', '.']) (hfits : (absPath dir name.1).length < MAX_PATH_LEN)
    (hdir : there.stat (absPath dir name.1) = .dir) :
    (cd dir there).2 = absPath dir name.1 := by
  have hpath : fitted (absPath dir name.1) = absPath dir name.1 :=
    List.take_of_length_le (Nat.le_sub_one_of_lt hfits)
  unfold cd
  simp only [hargs, if_neg hdots, hpath, hdir]

theorem cd_dots {back : CdCall} (hargs : back.args = [⟨['.', '.'], by decide⟩]) :
    (cd dir back).2 = parent dir := by
  unfold cd
  simp only [hargs, if_true]

/-- After any session, going to a directory by its name and back ends where it began. -/
theorem cd_back (calls : List CdCall) (name : CString) (there back : CdCall)
    (hthere : there.args = [name]) (hback : back.args = [⟨['.', '.'], by decide⟩])
    (hname : '/' ∉ name.1) (hdots : name.1 ≠ ['.', '.'])
    (hfits : (absPath (after cd ['/'] calls) name.1).length < MAX_PATH_LEN)
    (hdir : there.stat (absPath (after cd ['/'] calls) name.1) = .dir) :
    Maintained (after step start (calls ++ [there, back])) (after cd ['/'] calls) := by
  have hend := maintained_after (calls ++ [there, back])
  rw [after_append cd] at hend
  simp only [after, cd_there hthere hdots hfits hdir, cd_dots hback,
    parent_absPath (maintained_after calls) hname] at hend
  exact hend

def cdCall (stat : List Char → StatResult) (name : CString) : CdCall :=
  { stat := stat, path := fun _ => 'x', args := [name] }

/-- `cd lib`, `cd log` and `cd ..`, where both directories exist. -/
def libSession : List CdCall :=
  [cdCall (fun _ => .dir) ⟨['l', 'i', 'b'], by decide⟩,
    cdCall (fun _ => .dir) ⟨['l', 'o', 'g'], by decide⟩,
    cdCall (fun _ => .missing) ⟨['.', '.'], by decide⟩]

theorem cd_back_lib : Maintained (after step start libSession) ['/', 'l', 'i', 'b'] :=
  cd_back [cdCall (fun _ => .dir) ⟨['l', 'i', 'b'], by decide⟩] ⟨['l', 'o', 'g'], by decide⟩ _ _
    rfl rfl (by decide) (by decide) (by decide) rfl

end FsShell

end MyMouse
