import MyMouse.Run

namespace MyMouse

open Runs

def PORF : Nat := 0
def EXTRF : Nat := 1
def BORF : Nat := 2
def WDRF : Nat := 3

def MAGIC_BOOT_KEY : BitVec 16 := 0xDC42#16

inductive ResetCause
  | powerOn
  | external
  | brownOut
  | watchdog
  deriving DecidableEq

/-- `MCUSR` after a reset: a power-on clears the other flags, any other reset adds its own. -/
def ResetCause.mcusr (cause : ResetCause) (before : BitVec 8) : BitVec 8 :=
  match cause with
  | .powerOn => 1#8 <<< PORF
  | .external => before ||| 1#8 <<< EXTRF
  | .brownOut => before ||| 1#8 <<< BORF
  | .watchdog => before ||| 1#8 <<< WDRF

/-- The store of one byte of a 16-bit variable. -/
def storeByte (old value : BitVec 16) (high : Bool) : BitVec 16 :=
  if high then value.extractLsb' 8 8 ++ old.extractLsb' 0 8
  else old.extractLsb' 8 8 ++ value.extractLsb' 0 8

/-- The next thing the running program does to `MCUSR` or to the key. A variable of two bytes
is stored byte by byte. -/
inductive BootPhase
  | applicationJumpCheck
  | clearKey
  | clearOtherByte (high : Bool)
  | setupHardware
  | application
  | clearFlags
  | runBootloader
  | writeOtherByte (high : Bool)
  | waitForReset
  deriving DecidableEq

inductive BootProgram
  | bootloader
  | application
  deriving DecidableEq

/-- The condition of `application_jump_check`. -/
def jumpsToApplication (mcusr : BitVec 8) (magicBootKey : BitVec 16) : Bool :=
  mcusr &&& 1#8 <<< WDRF = 0#8 || magicBootKey = MAGIC_BOOT_KEY

/-- The chip with both programs. `cause` is that of the last reset, `keyWritten` whether the
bootloader has written the magic key since then, and `keyWrittenBefore` whether it had between
the reset before and the last one. -/
structure BootChip where
  phase : BootPhase
  mcusr : BitVec 8
  magicBootKey : BitVec 16
  cause : ResetCause
  keyWritten : Bool
  keyWrittenBefore : Bool
  deriving DecidableEq

/-- A reset, `ram` being what a power-on leaves in the cell of the key, or what the running
program does next, with the byte it stores first. -/
inductive BootStep
  | reset (cause : ResetCause) (ram : BitVec 16)
  | proceed (highFirst : Bool)
  deriving DecidableEq

namespace BootChip

def powerOn (ram : BitVec 16) : BootChip :=
  { phase := .applicationJumpCheck, mcusr := 1#8 <<< PORF, magicBootKey := ram, cause := .powerOn,
    keyWritten := false, keyWrittenBefore := false }

def reset (cause : ResetCause) (ram : BitVec 16) (s : BootChip) : BootChip :=
  { phase := .applicationJumpCheck
    mcusr := cause.mcusr s.mcusr
    magicBootKey := if cause = .powerOn then ram else s.magicBootKey
    cause := cause
    keyWritten := false
    keyWrittenBefore := s.keyWritten }

/-- The application and the waiting bootloader touch neither `MCUSR` nor the key. -/
def proceed (highFirst : Bool) (s : BootChip) : Option BootChip :=
  match s.phase with
  | .applicationJumpCheck =>
    if jumpsToApplication s.mcusr s.magicBootKey then some { s with phase := .clearKey }
    else some { s with phase := .clearFlags }
  | .clearKey =>
    some { s with
      phase := .clearOtherByte !highFirst
      magicBootKey := storeByte s.magicBootKey 0#16 highFirst }
  | .clearOtherByte high =>
    some { s with phase := .setupHardware, magicBootKey := storeByte s.magicBootKey 0#16 high }
  | .setupHardware => some { s with phase := .application, mcusr := 0#8 }
  | .application => none
  | .clearFlags => some { s with phase := .runBootloader, mcusr := 0#8 }
  | .runBootloader =>
    some { s with
      phase := .writeOtherByte !highFirst
      magicBootKey := storeByte s.magicBootKey MAGIC_BOOT_KEY highFirst }
  | .writeOtherByte high =>
    some { s with
      phase := .waitForReset
      magicBootKey := storeByte s.magicBootKey MAGIC_BOOT_KEY high
      keyWritten := true }
  | .waitForReset => none

def step (s : BootChip) : BootStep → Option BootChip
  | .reset cause ram => some (s.reset cause ram)
  | .proceed highFirst => s.proceed highFirst

/-- The program the last reset has started, or is about to start. -/
def started (s : BootChip) : BootProgram :=
  match s.phase with
  | .applicationJumpCheck =>
    if jumpsToApplication s.mcusr s.magicBootKey then .application else .bootloader
  | .clearKey | .clearOtherByte _ | .setupHardware | .application => .application
  | .clearFlags | .runBootloader | .writeOtherByte _ | .waitForReset => .bootloader

/-- The bootloader runs after a watchdog reset it has not asked for, and only then. -/
def Lawful (s : BootChip) : Prop :=
  s.started = .bootloader ↔ s.cause = .watchdog ∧ s.keyWrittenBefore = false

/-- A reset other than power-on comes when the traces of the one before are gone: an external
or brown-out reset finds no watchdog flag, unless the key is the magic one, and a watchdog reset
finds no magic key but one written since. -/
def Undisturbed (s : BootChip) : BootStep → Prop
  | .reset .powerOn _ => True
  | .reset .external _ | .reset .brownOut _ =>
    s.mcusr.getLsbD WDRF = true → s.magicBootKey = MAGIC_BOOT_KEY
  | .reset .watchdog _ => s.magicBootKey = MAGIC_BOOT_KEY → s.keyWritten = true
  | .proceed _ => True

instance (s : BootChip) : Decidable s.Lawful := inferInstanceAs (Decidable (_ ↔ _))

instance (s : BootChip) (a : BootStep) : Decidable (Undisturbed s a) :=
  match a with
  | .reset .powerOn _ => inferInstanceAs (Decidable True)
  | .reset .external _ => inferInstanceAs (Decidable (_ → _))
  | .reset .brownOut _ => inferInstanceAs (Decidable (_ → _))
  | .reset .watchdog _ => inferInstanceAs (Decidable (_ → _))
  | .proceed _ => inferInstanceAs (Decidable True)

/-- What the phases say about `MCUSR` and the key. -/
def Stored (s : BootChip) : Prop :=
  match s.phase with
  | .applicationJumpCheck | .clearKey => s.keyWritten = false
  | .clearOtherByte high =>
    storeByte s.magicBootKey 0#16 high = 0#16 ∧ s.keyWritten = false
  | .setupHardware => s.magicBootKey = 0#16 ∧ s.keyWritten = false
  | .application => s.magicBootKey = 0#16 ∧ s.mcusr = 0#8 ∧ s.keyWritten = false
  | .clearFlags => s.magicBootKey ≠ MAGIC_BOOT_KEY ∧ s.keyWritten = false
  | .runBootloader =>
    s.magicBootKey ≠ MAGIC_BOOT_KEY ∧ s.mcusr = 0#8 ∧ s.keyWritten = false
  | .writeOtherByte high =>
    storeByte s.magicBootKey MAGIC_BOOT_KEY high = MAGIC_BOOT_KEY ∧ s.mcusr = 0#8 ∧
      s.keyWritten = false
  | .waitForReset => s.magicBootKey = MAGIC_BOOT_KEY ∧ s.mcusr = 0#8 ∧ s.keyWritten = true

variable {s t : BootChip} {ram : BitVec 16} {trace : List (BootChip × BootStep)}

theorem storeByte_both (old value : BitVec 16) (high : Bool) :
    storeByte (storeByte old value high) value (!high) = value := by
  cases high with
  | true =>
    have hhigh : (storeByte old value true).extractLsb' 8 8 = value.extractLsb' 8 8 :=
      BitVec.extractLsb'_append_eq_left
    change (storeByte old value true).extractLsb' 8 8 ++ value.extractLsb' 0 8 = value
    rw [hhigh]
    exact BitVec.extractLsb'_append_extractLsb'
  | false =>
    have hlow : (storeByte old value false).extractLsb' 0 8 = value.extractLsb' 0 8 :=
      BitVec.extractLsb'_append_eq_right
    change value.extractLsb' 8 8 ++ (storeByte old value false).extractLsb' 0 8 = value
    rw [hlow]
    exact BitVec.extractLsb'_append_extractLsb'

theorem jumpsToApplication_iff (mcusr : BitVec 8) (magicBootKey : BitVec 16) :
    jumpsToApplication mcusr magicBootKey = true ↔
      (mcusr.getLsbD WDRF = true → magicBootKey = MAGIC_BOOT_KEY) := by
  have hflag : ∀ mcusr : BitVec 8,
      mcusr &&& 1#8 <<< WDRF = 0#8 ↔ ¬ mcusr.getLsbD WDRF = true := by decide +kernel
  unfold jumpsToApplication
  rw [Bool.or_eq_true, decide_eq_true_eq, decide_eq_true_eq, hflag]
  exact Decidable.imp_iff_not_or.symm

/-- The watchdog flag after a reset. -/
theorem mcusr_watchdog (cause : ResetCause) (before : BitVec 8) :
    (cause.mcusr before).getLsbD WDRF =
      match cause with
      | .powerOn => false
      | .external | .brownOut => before.getLsbD WDRF
      | .watchdog => true := by
  revert before
  cases cause with
  | powerOn => decide +kernel
  | external => decide +kernel
  | brownOut => decide +kernel
  | watchdog => decide +kernel

theorem stored_written (h : s.Stored) (hwritten : s.keyWritten = true) :
    s.magicBootKey = MAGIC_BOOT_KEY := by
  obtain ⟨phase, mcusr, magicBootKey, cause, keyWritten, keyWrittenBefore⟩ := s
  cases hwritten
  cases phase with
  | waitForReset => exact h.1
  | applicationJumpCheck => exact Bool.noConfusion h
  | clearKey => exact Bool.noConfusion h
  | clearOtherByte high => exact Bool.noConfusion h.2
  | setupHardware => exact Bool.noConfusion h.2
  | application => exact Bool.noConfusion h.2.2
  | clearFlags => exact Bool.noConfusion h.2
  | runBootloader => exact Bool.noConfusion h.2.2
  | writeOtherByte high => exact Bool.noConfusion h.2.2

theorem stored_proceed {highFirst : Bool} (h : s.Stored)
    (hstep : s.proceed highFirst = some t) : t.Stored := by
  unfold Stored at h
  unfold proceed at hstep
  split at hstep
  next hphase =>
    rw [hphase] at h
    split at hstep
    next =>
      cases hstep
      exact h
    next hstays =>
      cases hstep
      refine ⟨?_, h⟩
      intro hmagic
      exact hstays ((jumpsToApplication_iff _ _).mpr (fun _ => hmagic))
  next hphase =>
    rw [hphase] at h
    cases hstep
    exact ⟨storeByte_both _ _ _, h⟩
  next high hphase =>
    rw [hphase] at h
    cases hstep
    exact h
  next hphase =>
    rw [hphase] at h
    cases hstep
    exact ⟨h.1, rfl, h.2⟩
  next => cases hstep
  next hphase =>
    rw [hphase] at h
    cases hstep
    exact ⟨h.1, rfl, h.2⟩
  next hphase =>
    rw [hphase] at h
    cases hstep
    exact ⟨storeByte_both _ _ _, h.2⟩
  next high hphase =>
    rw [hphase] at h
    cases hstep
    exact ⟨h.1, h.2.1, rfl⟩
  next => cases hstep

theorem stored_step {a : BootStep} (h : s.Stored) (hstep : step s a = some t) : t.Stored := by
  cases a with
  | reset cause ram =>
    cases Option.some.inj hstep
    rfl
  | proceed highFirst => exact stored_proceed h hstep

theorem stored_run (run : Run step (powerOn ram) trace s) : AllStates Stored trace s := by
  have allowed : AllSteps (fun _ _ => True) trace := fun _ _ => trivial
  exact run.invariant allowed rfl (fun _ _ _ hs _ hstep => stored_step hs hstep)

/-- Once the application or the bootloader has cleared the flags, no reset is disturbed. -/
theorem undisturbed_settled (run : Run step (powerOn ram) trace s)
    (hphase : s.phase = .application ∨ s.phase = .runBootloader ∨ s.phase = .waitForReset)
    (cause : ResetCause) (left : BitVec 16) : Undisturbed s (.reset cause left) := by
  have h := (stored_run run).1
  have hsettled : s.mcusr = 0#8 ∧ (s.magicBootKey = MAGIC_BOOT_KEY → s.keyWritten = true) := by
    unfold Stored at h
    rcases hphase with hphase | hphase | hphase
    · rw [hphase] at h
      refine ⟨h.2.1, fun hmagic => ?_⟩
      rw [h.1] at hmagic
      exact absurd hmagic (by decide)
    · rw [hphase] at h
      exact ⟨h.2.1, fun hmagic => absurd hmagic h.1⟩
    · rw [hphase] at h
      exact ⟨h.2.1, fun _ => h.2.2⟩
  obtain ⟨hflags, hkey⟩ := hsettled
  cases cause with
  | powerOn => trivial
  | external =>
    intro hset
    rw [hflags] at hset
    cases hset
  | brownOut =>
    intro hset
    rw [hflags] at hset
    cases hset
  | watchdog => exact hkey

theorem started_reset (cause : ResetCause) (ram : BitVec 16) (s : BootChip) :
    (s.reset cause ram).started = .bootloader ↔
      match cause with
      | .powerOn => False
      | .external | .brownOut =>
        ¬ (s.mcusr.getLsbD WDRF = true → s.magicBootKey = MAGIC_BOOT_KEY)
      | .watchdog => s.magicBootKey ≠ MAGIC_BOOT_KEY := by
  have hstarted : (s.reset cause ram).started = .bootloader ↔
      ¬ jumpsToApplication (s.reset cause ram).mcusr (s.reset cause ram).magicBootKey = true := by
    change (if _ then BootProgram.application else BootProgram.bootloader) = _ ↔ _
    split
    next hjumps => simp [hjumps]
    next hstays => simp [hstays]
  have hflag := mcusr_watchdog cause s.mcusr
  rw [hstarted, jumpsToApplication_iff]
  change ¬ ((cause.mcusr s.mcusr).getLsbD WDRF = true → _) ↔ _
  rw [hflag]
  cases cause with
  | powerOn => simp
  | external => exact Iff.rfl
  | brownOut => exact Iff.rfl
  | watchdog => simp [reset]

theorem started_proceed {highFirst : Bool} (hstep : s.proceed highFirst = some t) :
    t.started = s.started ∧ t.cause = s.cause ∧ t.keyWrittenBefore = s.keyWrittenBefore := by
  unfold proceed at hstep
  unfold started
  split at hstep
  next =>
    split at hstep
    next hjumps =>
      cases hstep
      exact ⟨(if_pos hjumps).symm, rfl, rfl⟩
    next hstays =>
      cases hstep
      exact ⟨(if_neg hstays).symm, rfl, rfl⟩
  next =>
    cases hstep
    exact ⟨rfl, rfl, rfl⟩
  next =>
    cases hstep
    exact ⟨rfl, rfl, rfl⟩
  next =>
    cases hstep
    exact ⟨rfl, rfl, rfl⟩
  next => cases hstep
  next =>
    cases hstep
    exact ⟨rfl, rfl, rfl⟩
  next =>
    cases hstep
    exact ⟨rfl, rfl, rfl⟩
  next =>
    cases hstep
    exact ⟨rfl, rfl, rfl⟩
  next => cases hstep

theorem lawful_step_iff {a : BootStep} (hstored : s.Stored) (h : s.Lawful)
    (hstep : step s a = some t) : t.Lawful ↔ Undisturbed s a := by
  cases a with
  | proceed highFirst =>
    obtain ⟨hstarted, hcause, hbefore⟩ := started_proceed hstep
    unfold Lawful
    rw [hstarted, hcause, hbefore]
    exact iff_of_true h trivial
  | reset cause ram =>
    cases Option.some.inj hstep
    have hwritten := stored_written hstored
    unfold Lawful
    rw [started_reset]
    cases cause with
    | powerOn => simp [reset, Undisturbed]
    | external => simp [reset, Undisturbed]
    | brownOut => simp [reset, Undisturbed]
    | watchdog =>
      simp only [reset, Undisturbed, true_and]
      cases hkey : s.keyWritten with
      | true => simp [hwritten hkey]
      | false => simp

/-- Each reset of a run starts the program of its cause exactly if each comes undisturbed. -/
theorem bootChoice_iff (run : Run step (powerOn ram) trace s) :
    AllStates Lawful trace s ↔ AllSteps Undisturbed trace := by
  have hstart : (powerOn ram).Lawful := by
    have hjumps : jumpsToApplication (1#8 <<< PORF) ram = true := rfl
    unfold Lawful started powerOn
    simp only
    rw [if_pos hjumps]
    decide
  exact run.allStates_iff_of_invariant (stored_run run) hstart
    (fun _ _ _ hstored h hstep => lawful_step_iff hstored h hstep)

/-- From one reset to the application, whose flags are cleared. -/
def startApplication : List BootStep :=
  [.proceed true, .proceed true, .proceed true, .proceed true]

/-- The application asks for the bootloader, and the bootloader for the application. -/
def flashed : List BootStep :=
  startApplication ++ [.reset .watchdog 0#16, .proceed true, .proceed true, .proceed false,
    .proceed false, .reset .watchdog 0#16]

/-- A brown-out and a power-on of the flashed application. -/
def flashedAndStarted : List BootStep :=
  flashed ++ startApplication ++ [.reset .brownOut 0#16] ++ startApplication ++
    [.reset .powerOn MAGIC_BOOT_KEY, .proceed true]

theorem bootChoice_flashedAndStarted :
    ∃ (trace : List (BootChip × BootStep)) (s : BootChip),
      Run step (powerOn MAGIC_BOOT_KEY) trace s ∧
      trace.map Prod.snd = flashedAndStarted.reverse ∧ AllStates Lawful trace s := by
  have replayed : (replay (guarded Undisturbed step) (powerOn MAGIC_BOOT_KEY)
      flashedAndStarted).isSome = true := by
    decide +kernel
  obtain ⟨trace, s, run, undisturbed, labels⟩ := exists_allowed_run replayed
  exact ⟨trace, s, run, labels, (bootChoice_iff run).mpr undisturbed⟩

/-- An external reset between the jump to the flashed application and its `MCUSR = 0`. -/
def resetBeforeSetup : List BootStep :=
  flashed ++ [.proceed true, .proceed true, .proceed true, .reset .external 0#16, .proceed true]

theorem bootloader_started_resetBeforeSetup :
    ∃ (trace : List (BootChip × BootStep)) (s : BootChip),
      Run step (powerOn 0#16) trace s ∧ trace.map Prod.snd = resetBeforeSetup.reverse ∧
      s.phase = .clearFlags ∧ s.cause = .external ∧ ¬ s.Lawful := by
  obtain ⟨trace, s, run, labels, hs⟩ := exists_run_of_replay
    (p := fun (s : BootChip) => decide (s.phase = .clearFlags ∧ s.cause = .external))
    (show (replay step (powerOn 0#16) resetBeforeSetup).any _ = true by decide +kernel)
  obtain ⟨hphase, hcause⟩ := of_decide_eq_true hs
  refine ⟨trace, s, run, labels, hphase, hcause, ?_⟩
  intro lawful
  have hstarted : s.started = .bootloader := by
    unfold started
    rw [hphase]
  have hwatchdog := (lawful.mp hstarted).1
  rw [hcause] at hwatchdog
  cases hwatchdog

end BootChip

end MyMouse
