import MyMouse.Bootloader
import MyMouse.Run
import Mathlib.Tactic.IntervalCases

namespace MyMouse

open Runs

def REQDIR_HOSTTODEVICE : BitVec 8 := 0x00#8
def REQDIR_DEVICETOHOST : BitVec 8 := 0x80#8
def HID_REQ_GetReport : BitVec 8 := 0x01#8
def HID_REQ_GetIdle : BitVec 8 := 0x02#8
def HID_REQ_GetProtocol : BitVec 8 := 0x03#8
def HID_REQ_SetIdle : BitVec 8 := 0x0A#8
def HID_REQ_SetProtocol : BitVec 8 := 0x0B#8

def HID_REPORTID_DEVICE_CONTROL : BitVec 16 := 8#16
def ENTER_BOOTLOADER_KEY : BitVec 8 := 0x42#8

/-- A request with the fields the application looks at. -/
structure AppRequest extends ControlRequest where
  wValue : BitVec 16
  wLength : BitVec 16
  deriving DecidableEq

/-- A request of the HID class to the interface, in this direction. -/
def AppRequest.IsClass (direction : BitVec 8) (request : AppRequest) : Prop :=
  request.bmRequestType = direction ||| REQTYPE_CLASS ||| REQREC_INTERFACE

instance (direction : BitVec 8) (request : AppRequest) : Decidable (request.IsClass direction) :=
  inferInstanceAs (Decidable (_ = _))

/-- How the handler leaves a request. It does not come back where it waits for a data stage that
never comes, nor where it has detached the device to wait for the watchdog. -/
inductive AppReply
  | ignored
  | acknowledged
  | sent (byte : BitVec 8)
  | stalled
  | waits
  | detached
  deriving DecidableEq

/-- The application's side of USB; `halted` says that it is in a loop only a reset ends. -/
structure MouseApp where
  usingReportProtocol : Bool
  idleCount : BitVec 16
  idleMSRemaining : BitVec 16
  halted : Bool
  deriving DecidableEq

/-- Connect, start of a frame, and a control request with its data stage, the two bytes of it or
nothing at all. -/
inductive AppEvent
  | connect
  | startOfFrame
  | request (request : AppRequest) (dataStage : Option (BitVec 8 × BitVec 8))
  deriving DecidableEq

/-- The idle period in milliseconds for an idle rate, whose unit is four of them. -/
def idleCountOf (rate : BitVec 8) : BitVec 16 := rate.setWidth 16 <<< (2 : Nat)

namespace MouseApp

def start : MouseApp :=
  { usingReportProtocol := true, idleCount := 0#16, idleMSRemaining := 0#16, halted := false }

def eventUsbDeviceConnect (app : MouseApp) : MouseApp := { app with usingReportProtocol := true }

def eventUsbDeviceStartOfFrame (app : MouseApp) : MouseApp :=
  if app.idleMSRemaining ≠ 0#16 then { app with idleMSRemaining := app.idleMSRemaining - 1#16 }
  else app

/-- The byte of the report after its id, when it has come. -/
def setDeviceControlReport (dataStage : Option (BitVec 8 × BitVec 8)) (app : MouseApp) :
    AppReply × MouseApp :=
  match dataStage with
  | none => (.waits, { app with halted := true })
  | some (_, key) =>
    if key = ENTER_BOOTLOADER_KEY then (.detached, { app with halted := true })
    else (.stalled, app)

def eventUsbDeviceControlRequest (request : AppRequest)
    (dataStage : Option (BitVec 8 × BitVec 8)) (app : MouseApp) : AppReply × MouseApp :=
  if request.bRequest = HID_REQ_GetReport then (.ignored, app)
  else if request.bRequest = HID_REQ_SetReport then
    if request.IsClass REQDIR_HOSTTODEVICE ∧
        request.wValue &&& 0xFF#16 = HID_REPORTID_DEVICE_CONTROL ∧ request.wLength = 2#16 then
      app.setDeviceControlReport dataStage
    else (.ignored, app)
  else if request.bRequest = HID_REQ_GetProtocol then
    if request.IsClass REQDIR_DEVICETOHOST then
      (.sent (if app.usingReportProtocol then 1#8 else 0#8), app)
    else (.ignored, app)
  else if request.bRequest = HID_REQ_SetProtocol then
    if request.IsClass REQDIR_HOSTTODEVICE then
      (.acknowledged, { app with usingReportProtocol := decide (request.wValue ≠ 0#16) })
    else (.ignored, app)
  else if request.bRequest = HID_REQ_SetIdle then
    if request.IsClass REQDIR_HOSTTODEVICE then
      (.acknowledged, { app with idleCount := (request.wValue &&& 0xFF00#16) >>> 6 })
    else (.ignored, app)
  else if request.bRequest = HID_REQ_GetIdle then
    if request.IsClass REQDIR_DEVICETOHOST then
      (.sent ((app.idleCount >>> 2).setWidth 8), app)
    else (.ignored, app)
  else (.ignored, app)

def step (app : MouseApp) (event : AppEvent) : Option MouseApp :=
  if app.halted then none
  else match event with
    | .connect => some app.eventUsbDeviceConnect
    | .startOfFrame => some app.eventUsbDeviceStartOfFrame
    | .request request dataStage => some (app.eventUsbDeviceControlRequest request dataStage).2

/-- The protocol an event asks for. -/
def protocolOf : AppEvent → Option Bool
  | .connect => some true
  | .startOfFrame => none
  | .request request _ =>
    if request.bRequest = HID_REQ_SetProtocol ∧ request.IsClass REQDIR_HOSTTODEVICE then
      some (decide (request.wValue ≠ 0#16))
    else none

/-- The idle rate an event asks for, in the high byte of `wValue`. -/
def idleRateOf : AppEvent → Option (BitVec 8)
  | .request request _ =>
    if request.bRequest = HID_REQ_SetIdle ∧ request.IsClass REQDIR_HOSTTODEVICE then
      some (request.wValue.extractLsb' 8 8)
    else none
  | _ => none

def events (trace : List (MouseApp × AppEvent)) : List AppEvent := trace.reverse.map Prod.snd

variable {app app' : MouseApp} {event : AppEvent} {trace : List (MouseApp × AppEvent)}

theorem setDeviceControlReport_keeps (dataStage : Option (BitVec 8 × BitVec 8)) :
    (app.setDeviceControlReport dataStage).2 =
      { app with halted := (app.setDeviceControlReport dataStage).2.halted } := by
  unfold setDeviceControlReport
  split
  next => rfl
  next =>
    split
    next => rfl
    next => rfl

theorem highByte_mask (i : Nat) :
    (0xFF00#16).getLsbD i = (decide (8 ≤ i) && decide (i < 16)) := by
  by_cases h : i < 16
  · interval_cases i <;> rfl
  · rw [BitVec.getLsbD_of_ge _ _ (by omega)]
    simp [h]

theorem idleCount_rate (wValue : BitVec 16) :
    (wValue &&& 0xFF00#16) >>> 6 = idleCountOf (wValue.extractLsb' 8 8) := by
  unfold idleCountOf
  ext i hi
  rw [BitVec.getElem_ushiftRight, BitVec.getLsbD_and, highByte_mask]
  simp only [BitVec.getElem_shiftLeft, BitVec.getElem_setWidth, BitVec.getLsbD_extractLsb']
  grind

theorem idleRate_count (rate : BitVec 8) : (idleCountOf rate >>> 2).setWidth 8 = rate := by
  revert rate
  decide +kernel

/-- Every request sets the field it is about, and no other. -/
theorem request_fields (request : AppRequest) (dataStage : Option (BitVec 8 × BitVec 8)) :
    (app.eventUsbDeviceControlRequest request dataStage).2 =
      { app with
        usingReportProtocol :=
          (protocolOf (.request request dataStage)).getD app.usingReportProtocol
        idleCount := ((idleRateOf (.request request dataStage)).map idleCountOf).getD app.idleCount
        halted := (app.eventUsbDeviceControlRequest request dataStage).2.halted } := by
  unfold eventUsbDeviceControlRequest protocolOf idleRateOf
  by_cases hprotocol : request.bRequest = HID_REQ_SetProtocol
  · rw [hprotocol, if_neg (by decide), if_neg (by decide), if_neg (by decide), if_pos rfl]
    by_cases hclass : request.IsClass REQDIR_HOSTTODEVICE
    · rw [if_pos hclass]
      simp [hclass, hprotocol, HID_REQ_SetProtocol, HID_REQ_SetIdle]
    · rw [if_neg hclass]
      simp [hclass]
  · by_cases hidle : request.bRequest = HID_REQ_SetIdle
    · rw [hidle, if_neg (by decide), if_neg (by decide), if_neg (by decide), if_neg (by decide),
        if_pos rfl]
      by_cases hclass : request.IsClass REQDIR_HOSTTODEVICE
      · rw [if_pos hclass, idleCount_rate]
        simp [hclass, hidle, HID_REQ_SetProtocol, HID_REQ_SetIdle]
      · rw [if_neg hclass]
        simp [hclass]
    · rw [if_neg hprotocol, if_neg hidle]
      simp only [hprotocol, hidle, false_and, if_false, Option.getD_none, Option.map_none]
      have hkeeps := @setDeviceControlReport_keeps app dataStage
      split
      next => rfl
      next =>
        split
        next =>
          split
          next => exact hkeeps
          next => rfl
        next =>
          split
          next => split <;> rfl
          next =>
            split
            next => split <;> rfl
            next => rfl

theorem reply_getProtocol {request : AppRequest} (hrequest : request.bRequest = HID_REQ_GetProtocol)
    (hclass : request.IsClass REQDIR_DEVICETOHOST)
    (dataStage : Option (BitVec 8 × BitVec 8)) :
    (app.eventUsbDeviceControlRequest request dataStage).1 =
      .sent (if app.usingReportProtocol then 1#8 else 0#8) := by
  unfold eventUsbDeviceControlRequest
  rw [hrequest, if_neg (by decide), if_neg (by decide), if_pos rfl, if_pos hclass]

theorem reply_getIdle {request : AppRequest} (hrequest : request.bRequest = HID_REQ_GetIdle)
    (hclass : request.IsClass REQDIR_DEVICETOHOST)
    (dataStage : Option (BitVec 8 × BitVec 8)) :
    (app.eventUsbDeviceControlRequest request dataStage).1 =
      .sent ((app.idleCount >>> 2).setWidth 8) := by
  unfold eventUsbDeviceControlRequest
  rw [hrequest, if_neg (by decide), if_neg (by decide), if_neg (by decide), if_neg (by decide),
    if_neg (by decide), if_pos rfl, if_pos hclass]

/-- The settings of the application are those last asked for. -/
structure Settings (past : List AppEvent) (app : MouseApp) : Prop where
  protocol : app.usingReportProtocol = (lastSome protocolOf past).getD true
  idle : app.idleCount = idleCountOf ((lastSome idleRateOf past).getD 0#8)
  remaining : app.idleMSRemaining = 0#16

theorem settings_step {past : List AppEvent} (h : Settings past app)
    (hstep : step app event = some app') : Settings (past ++ [event]) app' := by
  have hprotocol : (lastSome protocolOf (past ++ [event])).getD true =
      (protocolOf event).getD app.usingReportProtocol := by
    rw [lastSome_append, h.protocol]
    cases hevent : protocolOf event with
    | none => simp [lastSome, hevent]
    | some protocol => simp [lastSome, hevent]
  have hidle : idleCountOf ((lastSome idleRateOf (past ++ [event])).getD 0#8) =
      ((idleRateOf event).map idleCountOf).getD app.idleCount := by
    rw [lastSome_append, h.idle]
    cases hevent : idleRateOf event with
    | none => simp [lastSome, hevent]
    | some rate => simp [lastSome, hevent]
  unfold step at hstep
  split at hstep
  next => cases hstep
  next =>
    cases event with
    | connect =>
      cases Option.some.inj hstep
      exact ⟨hprotocol.symm, hidle.symm, h.remaining⟩
    | startOfFrame =>
      have hsame : app.eventUsbDeviceStartOfFrame = app := by
        unfold eventUsbDeviceStartOfFrame
        rw [if_neg (fun hleft => hleft h.remaining)]
      obtain rfl := (Option.some.inj hstep).symm.trans hsame
      exact ⟨hprotocol.symm, hidle.symm, h.remaining⟩
    | request request dataStage =>
      obtain rfl := Option.some.inj hstep
      rw [request_fields]
      exact ⟨hprotocol.symm, hidle.symm, h.remaining⟩

theorem settings_run (run : Run step start trace app) : Settings (events trace) app := by
  induction run with
  | start => exact ⟨rfl, rfl, rfl⟩
  | @next trace app event app' _ hstep ih =>
    have hpast : events ((app, event) :: trace) = events trace ++ [event] := by
      simp [events]
    rw [hpast]
    exact settings_step ih hstep

/-- Whatever has happened before, the application answers a request for the protocol or the idle
rate with what was last set, the report protocol on connect and no idle rate at first. -/
theorem app_answers_run (run : Run step start trace app) (request : AppRequest)
    (dataStage : Option (BitVec 8 × BitVec 8)) (hclass : request.IsClass REQDIR_DEVICETOHOST) :
    (request.bRequest = HID_REQ_GetProtocol →
      (app.eventUsbDeviceControlRequest request dataStage).1 =
        .sent (if (lastSome protocolOf (events trace)).getD true then 1#8 else 0#8)) ∧
    (request.bRequest = HID_REQ_GetIdle →
      (app.eventUsbDeviceControlRequest request dataStage).1 =
        .sent ((lastSome idleRateOf (events trace)).getD 0#8)) := by
  have hsettings := settings_run run
  refine ⟨?_, ?_⟩
  · intro hrequest
    rw [reply_getProtocol hrequest hclass, hsettings.protocol]
  · intro hrequest
    rw [reply_getIdle hrequest hclass, hsettings.idle, idleRate_count]

/-- The host sets the idle rate to 125 units and asks for it. -/
def idleRateSet : List AppEvent :=
  [.connect, .request ⟨⟨0x21#8, HID_REQ_SetIdle⟩, 0x7D00#16, 0#16⟩ none, .startOfFrame]

def getIdleRequest : AppRequest := ⟨⟨0xA1#8, HID_REQ_GetIdle⟩, 0#16, 1#16⟩

theorem app_answers_run_idleRateSet : ∃ trace app, Run step start trace app ∧
    trace.map Prod.snd = idleRateSet.reverse ∧
    (app.eventUsbDeviceControlRequest getIdleRequest none).1 =
      .sent ((lastSome idleRateOf (events trace)).getD 0#8) := by
  have hreplay : (replay step start idleRateSet).any (fun _ => true) = true := by
    decide
  obtain ⟨trace, app, run, labels, _⟩ := exists_run_of_replay hreplay
  exact ⟨trace, app, run, labels, (app_answers_run run getIdleRequest none rfl).2 rfl⟩

/-- The report that asks for the bootloader. -/
def enterBootloaderRequest : AppRequest :=
  { bmRequestType := 0x21#8, bRequest := HID_REQ_SetReport, wValue := 0x0208#16, wLength := 2#16 }

end MouseApp

end MyMouse
