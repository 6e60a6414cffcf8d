import MyMouse.Run
import MyMouse.Spi
import MyMouse.UsbDescriptor

namespace MyMouse

open Runs

inductive CommStage
  | verifyFirst
  | descriptor
  | enable
  | report
  | verify
  deriving DecidableEq

/-- What the thread does next: `did_avr_appear`, the handshake or the data of a command, or
the wait for the IRQ line after a failed verification. -/
inductive CommPc
  | detect
  | waitIrq
  | handshake (stage : CommStage)
  | data (stage : CommStage)
  deriving DecidableEq

/-- The thread and the AVR; `accepted` are the commands the AVR has taken since it was powered
up, the latest first (a command of the initialisation only when all of its bytes came), and
`inTransaction` says that it handles the current one. -/
structure AvrLink where
  pc : CommPc
  powered : Bool
  inTransaction : Bool
  avr : Avr
  accepted : List AvrCommand

/-- The steps of the thread carry what it receives; `noise` is received from an AVR that has
lost its power since the handshake. -/
inductive LinkStep
  | avrPowerUp
  | avrPowerDown
  | usbEvent (state : UsbDeviceState)
  | didAvrAppear (appeared : Bool)
  | irqReleased
  | handshake (rx : BitVec 8)
  | data (noise : List (BitVec 8)) (fetchedMore : Bool)
  | transferError (err : Int) (clocked : Nat) (fetchedMore : Bool)
  deriving DecidableEq

namespace CommStage

def command : CommStage → AvrCommand
  | .verifyFirst | .verify => .verifyAvrId
  | .descriptor => .sendReportDescriptor
  | .enable => .enableUsb
  | .report => .sendReport

def initialises : CommStage → Bool
  | .descriptor | .enable => true
  | _ => false

/-- What a powered AVR is to have accepted before, the latest first. -/
def requires : CommStage → List AvrCommand
  | .verifyFirst | .descriptor => []
  | .enable => [.sendReportDescriptor]
  | .report | .verify => [.enableUsb, .sendReportDescriptor]

end CommStage

namespace CommPc

def stage? : CommPc → Option CommStage
  | .handshake stage | .data stage => some stage
  | .detect | .waitIrq => none

/-- `avr_comm_loop` looks at the result of `verify_avr_id` only. -/
def next (stage : CommStage) (result : Int) : CommPc :=
  match stage with
  | .verifyFirst => if result ≠ 0 then .waitIrq else .handshake .descriptor
  | .descriptor => .handshake .enable
  | .enable => .handshake .report
  | .report => .handshake .verify
  | .verify => if result ≠ 1 then .handshake .report else .detect

end CommPc

namespace AvrLink

def reset (libs : AvrLibs) : AvrLink :=
  { pc := .detect, powered := false, inTransaction := false, avr := Avr.reset libs, accepted := [] }

/-- The result of `avr_transceive` and its caller, once the data transfer has ended. -/
def result (stage : CommStage) (received : List (BitVec 8)) : Int :=
  match stage.command with
  | .verifyAvrId => verifyResponse received
  | _ => 0

def handle (libs : AvrLibs) (command : AvrCommand) (data : List (BitVec 8)) (fetchedMore : Bool)
    (avr : Avr) : List (BitVec 8) × Avr :=
  spiTask libs ⟨0x42#8, command.commandId, data, fetchedMore⟩ avr

def step (libs : AvrLibs) (s : AvrLink) : LinkStep → Option AvrLink
  | .avrPowerUp =>
    if s.powered then none
    else some { s with powered := true, inTransaction := false, avr := Avr.reset libs, accepted := [] }
  | .avrPowerDown =>
    if s.powered then some { s with powered := false, inTransaction := false } else none
  | .usbEvent state =>
    if s.powered then some { s with avr := { s.avr with usbDeviceState := state } } else none
  | .didAvrAppear appeared =>
    match s.pc with
    | .detect => some { s with pc := if appeared then .handshake .verifyFirst else .detect }
    | _ => none
  | .irqReleased =>
    match s.pc with
    | .waitIrq => some { s with pc := .detect }
    | _ => none
  | .handshake rx =>
    match s.pc with
    | .handshake stage =>
      if rx = HANDSHAKE_RX_VALUE then
        if s.powered then some { s with pc := .data stage, inTransaction := true } else none
      else some { s with pc := .next stage (-EBUSY) }
    | _ => none
  | .data noise fetchedMore =>
    match s.pc with
    | .data stage =>
      if s.inTransaction then
        let (response, avr) := handle libs stage.command stage.command.payload fetchedMore s.avr
        some { s with
          pc := .next stage (result stage response)
          inTransaction := false
          avr := avr
          accepted := stage.command :: s.accepted }
      else some { s with pc := .next stage (result stage noise) }
    | _ => none
  | .transferError err clocked fetchedMore =>
    if err < 0 then
      match s.pc with
      | .handshake stage => some { s with pc := .next stage err }
      | .data stage =>
        if s.inTransaction then
          let avr := (handle libs stage.command (stage.command.payload.take clocked) fetchedMore
            s.avr).2
          some { s with
            pc := .next stage err
            inTransaction := false
            avr := avr
            accepted := if stage.initialises then s.accepted else stage.command :: s.accepted }
        else some { s with pc := .next stage err }
      | _ => none
    else none

/-- Every accepted report comes after an accepted report descriptor and then an accepted USB
command. -/
def ReportsInitialised (accepted : List AvrCommand) : Prop :=
  ∀ after before, accepted = after ++ .sendReport :: before →
    [.enableUsb, .sendReportDescriptor].Sublist before

/-- The thread is about to send an initialisation command, or is sending it. -/
def Initialising (s : AvrLink) : Prop := s.pc.stage?.any CommStage.initialises = true

instance (s : AvrLink) : Decidable s.Initialising := inferInstanceAs (Decidable (_ = _))

/-- An AVR with power takes each initialisation command, and does not regain power between
the first one and the end of the loop. -/
def InitTaken (s : AvrLink) : LinkStep → Prop
  | .avrPowerUp => s.pc.stage?.all (fun stage => stage.requires.isEmpty) = true
  | .handshake rx => s.Initialising → s.powered = true → rx = HANDSHAKE_RX_VALUE
  | .data _ _ => s.Initialising → s.powered = true → s.inTransaction = true
  | .transferError _ _ _ => s.Initialising → s.powered = false
  | _ => True

instance (s : AvrLink) (a : LinkStep) : Decidable (InitTaken s a) :=
  match a with
  | .avrPowerUp => inferInstanceAs (Decidable (_ = _))
  | .avrPowerDown => inferInstanceAs (Decidable True)
  | .usbEvent _ => inferInstanceAs (Decidable True)
  | .didAvrAppear _ => inferInstanceAs (Decidable True)
  | .irqReleased => inferInstanceAs (Decidable True)
  | .handshake _ => inferInstanceAs (Decidable (_ → _ → _))
  | .data _ _ => inferInstanceAs (Decidable (_ → _ → _))
  | .transferError _ _ _ => inferInstanceAs (Decidable (_ → _))

structure Inv (s : AvrLink) : Prop where
  reports : ReportsInitialised s.accepted
  transaction : s.inTransaction = true → s.powered = true
  required : ∀ stage, s.pc.stage? = some stage → s.powered = true →
    stage.requires.Sublist s.accepted

variable {libs : AvrLibs} {s t : AvrLink}

theorem reportsInitialised_nil : ReportsInitialised [] := by
  intro after before heq
  simp at heq

theorem reportsInitialised_cons {accepted : List AvrCommand} {command : AvrCommand}
    (h : ReportsInitialised accepted)
    (hreport : command = .sendReport → [.enableUsb, .sendReportDescriptor].Sublist accepted) :
    ReportsInitialised (command :: accepted) := by
  intro after before heq
  cases after with
  | nil =>
    obtain ⟨hcommand, hbefore⟩ := List.cons.inj heq
    rw [← hbefore]
    exact hreport hcommand
  | cons first after =>
    exact h after before (List.cons.inj heq).2

theorem next_requires {stage next : CommStage} {result : Int}
    (h : (CommPc.next stage result).stage? = some next) :
    next.requires =
      if stage.initialises then stage.command :: stage.requires else stage.requires := by
  cases stage with
  | verifyFirst =>
    simp only [CommPc.next] at h
    split at h <;> cases h
    rfl
  | descriptor =>
    cases h
    rfl
  | enable =>
    cases h
    rfl
  | report =>
    cases h
    rfl
  | verify =>
    simp only [CommPc.next] at h
    split at h <;> cases h
    rfl

theorem initialises_eq_false {stage : CommStage} (hpc : s.pc.stage? = some stage)
    (htaken : s.Initialising → s.powered = false) (hon : s.powered = true) :
    stage.initialises = false := by
  rw [← Bool.not_eq_true]
  intro hinit
  have hoff := htaken (by simp [Initialising, hpc, hinit])
  simp [hon] at hoff

theorem powered_eq_false {taken : Prop} (htaken : s.Initialising → s.powered = true → taken)
    (hnot : ¬ taken) : s.Initialising → s.powered = false := by
  intro hinit
  rw [← Bool.not_eq_true]
  intro hon
  exact hnot (htaken hinit hon)

theorem Inv.end_command (h : Inv s) {stage : CommStage} {result : Int}
    (hpc : s.pc.stage? = some stage) (htaken : s.Initialising → s.powered = false)
    (hnext : t.pc = .next stage result) (hpowered : t.powered = s.powered)
    (haccepted : t.accepted = s.accepted)
    (htransaction : t.inTransaction = true → s.inTransaction = true) : Inv t := by
  refine ⟨by rw [haccepted]; exact h.reports, ?_, ?_⟩
  · intro hin
    rw [hpowered]
    exact h.transaction (htransaction hin)
  · intro next hstage hon
    rw [hnext] at hstage
    rw [hpowered] at hon
    rw [next_requires hstage, initialises_eq_false hpc htaken hon, haccepted]
    exact h.required stage hpc hon

theorem Inv.accept_command (h : Inv s) {stage : CommStage} {result : Int}
    (hpc : s.pc.stage? = some stage) (hin : s.inTransaction = true) {avr : Avr} :
    Inv { s with
      pc := .next stage result
      inTransaction := false
      avr := avr
      accepted := stage.command :: s.accepted } := by
  have hrequired := h.required stage hpc (h.transaction hin)
  refine ⟨reportsInitialised_cons h.reports ?_, by simp, ?_⟩
  · intro hreport
    cases stage with
    | report => exact hrequired
    | verifyFirst | descriptor | enable | verify => simp [CommStage.command] at hreport
  · intro next hstage _
    rw [next_requires hstage]
    split
    next => exact hrequired.cons_cons _
    next => exact hrequired.cons _

theorem inv_powerUp (taken : InitTaken s .avrPowerUp)
    (hstep : step libs s .avrPowerUp = some t) : Inv t := by
  simp only [step] at hstep
  split at hstep
  next => simp at hstep
  next =>
    cases Option.some.inj hstep
    refine ⟨?_, fun _ => rfl, ?_⟩
    · exact reportsInitialised_nil
    · intro stage hstage _
      change s.pc.stage?.all _ = true at taken
      change s.pc.stage? = some stage at hstage
      rw [hstage] at taken
      have hnil : stage.requires = [] := by simpa using taken
      rw [hnil]

theorem inv_handshake {rx : BitVec 8} (h : Inv s) (taken : InitTaken s (.handshake rx))
    (hstep : step libs s (.handshake rx) = some t) : Inv t := by
  simp only [step] at hstep
  split at hstep
  next stage hpc =>
    have hstage : s.pc.stage? = some stage := by rw [hpc]; rfl
    split at hstep
    next =>
      split at hstep
      next hon =>
        cases Option.some.inj hstep
        refine ⟨h.reports, fun _ => hon, ?_⟩
        intro other hother
        cases Option.some.inj hother
        exact h.required stage hstage
      next => simp at hstep
    next hne =>
      cases Option.some.inj hstep
      exact h.end_command hstage (powered_eq_false taken hne) rfl rfl rfl (fun hin => hin)
  next => simp at hstep

theorem inv_data {noise : List (BitVec 8)} {fetchedMore : Bool} (h : Inv s)
    (taken : InitTaken s (.data noise fetchedMore))
    (hstep : step libs s (.data noise fetchedMore) = some t) : Inv t := by
  simp only [step] at hstep
  split at hstep
  next stage hpc =>
    have hstage : s.pc.stage? = some stage := by rw [hpc]; rfl
    split at hstep
    next hin =>
      cases Option.some.inj hstep
      exact h.accept_command hstage hin
    next hout =>
      cases Option.some.inj hstep
      exact h.end_command hstage (powered_eq_false taken hout) rfl rfl rfl (fun hin => hin)
  next => simp at hstep

theorem inv_transferError {err : Int} {clocked : Nat} {fetchedMore : Bool} (h : Inv s)
    (taken : InitTaken s (.transferError err clocked fetchedMore))
    (hstep : step libs s (.transferError err clocked fetchedMore) = some t) : Inv t := by
  simp only [step] at hstep
  split at hstep
  next =>
    split at hstep
    next stage hpc =>
      cases Option.some.inj hstep
      exact h.end_command (by rw [hpc]; rfl) taken rfl rfl rfl (fun hin => hin)
    next stage hpc =>
      have hstage : s.pc.stage? = some stage := by rw [hpc]; rfl
      split at hstep
      next hin =>
        cases Option.some.inj hstep
        have hnot := initialises_eq_false hstage taken (h.transaction hin)
        simp only [hnot, Bool.false_eq_true, if_false]
        exact h.accept_command hstage hin
      next =>
        cases Option.some.inj hstep
        exact h.end_command hstage taken rfl rfl rfl (fun hin => hin)
    next => simp at hstep
  next => simp at hstep

theorem inv_step {a : LinkStep} (h : Inv s) (taken : InitTaken s a)
    (hstep : step libs s a = some t) : Inv t := by
  cases a with
  | avrPowerUp => exact inv_powerUp taken hstep
  | avrPowerDown =>
    simp only [step] at hstep
    split at hstep
    next =>
      cases Option.some.inj hstep
      exact ⟨h.reports, by simp, fun _ _ hon => by simp at hon⟩
    next => simp at hstep
  | usbEvent state =>
    simp only [step] at hstep
    split at hstep
    next =>
      cases Option.some.inj hstep
      exact ⟨h.reports, h.transaction, h.required⟩
    next => simp at hstep
  | didAvrAppear appeared =>
    simp only [step] at hstep
    split at hstep
    next =>
      cases Option.some.inj hstep
      refine ⟨h.reports, h.transaction, ?_⟩
      intro stage hstage _
      cases appeared <;> cases hstage
      exact List.nil_sublist _
    next => simp at hstep
  | irqReleased =>
    simp only [step] at hstep
    split at hstep
    next =>
      cases Option.some.inj hstep
      exact ⟨h.reports, h.transaction, fun _ hstage => by cases hstage⟩
    next => simp at hstep
  | handshake rx => exact inv_handshake h taken hstep
  | data noise fetchedMore => exact inv_data h taken hstep
  | transferError err clocked fetchedMore => exact inv_transferError h taken hstep

theorem inv_reset (libs : AvrLibs) : Inv (reset libs) := by
  exact ⟨reportsInitialised_nil, by simp [reset], fun _ hstage => by cases hstage⟩

/-- A powered AVR accepts reports only once it has been initialised, in every run in which it
takes the initialisation commands and does not regain power behind the thread's back. -/
theorem reports_initialised {trace : List (AvrLink × LinkStep)}
    (run : Run (step libs) (reset libs) trace s) (taken : AllSteps InitTaken trace) :
    AllStates (fun s => ReportsInitialised s.accepted) trace s := by
  have invariant := run.invariant taken (inv_reset libs)
    (fun s a t hs hok hstep => inv_step hs hok hstep)
  exact invariant.imp (fun s hs => hs.reports)

/-- A command the AVR takes, all of its bytes being clocked. -/
def takenCommand : List LinkStep := [.handshake HANDSHAKE_RX_VALUE, .data [] true]

def poweredSession : List LinkStep :=
  [.avrPowerUp, .didAvrAppear true] ++ (List.replicate 5 takenCommand).flatten

/-- The AVR loses its power in a verification and has it again once the thread has left
`avr_comm_loop`. -/
def powerCycle : List LinkStep :=
  poweredSession ++ takenCommand ++
    [.handshake HANDSHAKE_RX_VALUE, .avrPowerDown, .data [0x00, 0x00, 0x00, 0x00] false,
      .didAvrAppear false] ++ poweredSession

theorem reports_initialised_powerCycle :
    ∃ (trace : List (AvrLink × LinkStep)) (s : AvrLink),
      Run (step mouseLibs) (reset mouseLibs) trace s ∧ trace.map Prod.snd = powerCycle.reverse ∧
      AllStates (fun s => ReportsInitialised s.accepted) trace s := by
  have replayed :
      (replay (guarded InitTaken (step mouseLibs)) (reset mouseLibs) powerCycle).isSome = true := by
    decide +kernel
  obtain ⟨trace, s, run, taken, labels⟩ := exists_allowed_run replayed
  exact ⟨trace, s, run, labels, reports_initialised run taken⟩

/-- The AVR is without power during one report and its verification. -/
def shortPowerLoss : List LinkStep :=
  poweredSession ++
    [.avrPowerDown, .handshake 0x00, .handshake 0x00, .avrPowerUp] ++ takenCommand

theorem report_uninitialised_shortPowerLoss :
    ∃ (trace : List (AvrLink × LinkStep)) (s : AvrLink),
      Run (step mouseLibs) (reset mouseLibs) trace s ∧
      trace.map Prod.snd = shortPowerLoss.reverse ∧
      s.accepted = [.sendReport] ∧ ¬ ReportsInitialised s.accepted := by
  obtain ⟨trace, s, run, labels, haccepted⟩ := exists_run_of_replay
    (p := fun (s : AvrLink) => s.accepted == [.sendReport])
    (show (replay (step mouseLibs) (reset mouseLibs) shortPowerLoss).any _ = true by decide +kernel)
  have hreport : s.accepted = [.sendReport] := by simpa using haccepted
  refine ⟨trace, s, run, labels, hreport, ?_⟩
  intro initialised
  have hbefore := initialised [] [] hreport
  simp at hbefore

end AvrLink

end MyMouse
