import Mathlib.Data.List.Basic

namespace MyMouse

/-- `struct hid_report`; `unused` are the five padding bits of the buttons byte. -/
structure HidReport where
  left : Bool
  right : Bool
  middle : Bool
  unused : BitVec 5
  wheelDelta : BitVec 8
  xDelta : BitVec 12
  yDelta : BitVec 12
  deriving DecidableEq

def HidReport.zero : HidReport :=
  { left := false, right := false, middle := false, unused := 0#5, wheelDelta := 0#8,
    xDelta := 0#12, yDelta := 0#12 }

/-- `hid_report_persistent_bytes`: bit i says whether byte i of the report is kept. -/
def hidReportPersistentBytes : BitVec 8 := 0x01#8

/-- The two delta fields share bytes 2 to 4, the wheel is byte 1, the buttons are byte 0. -/
def clearNonPersistentDataInReport (report : HidReport) : HidReport :=
  let kept := fun i => hidReportPersistentBytes.getLsbD i
  { left := kept 0 && report.left
    right := kept 0 && report.right
    middle := kept 0 && report.middle
    unused := if kept 0 then report.unused else 0#5
    wheelDelta := if kept 1 then report.wheelDelta else 0#8
    xDelta :=
      (if kept 3 then report.xDelta.extractLsb' 8 4 else 0#4) ++
        (if kept 2 then report.xDelta.extractLsb' 0 8 else 0#8)
    yDelta :=
      (if kept 4 then report.yDelta.extractLsb' 4 8 else 0#8) ++
        (if kept 3 then report.yDelta.extractLsb' 0 4 else 0#4) }

theorem clearNonPersistent_eq (report : HidReport) :
    clearNonPersistentDataInReport report =
      { HidReport.zero with
        left := report.left, right := report.right, middle := report.middle,
        unused := report.unused } := by
  have h0 : hidReportPersistentBytes.getLsbD 0 = true := rfl
  have h1 : hidReportPersistentBytes.getLsbD 1 = false := rfl
  have h2 : hidReportPersistentBytes.getLsbD 2 = false := rfl
  have h3 : hidReportPersistentBytes.getLsbD 3 = false := rfl
  have h4 : hidReportPersistentBytes.getLsbD 4 = false := rfl
  simp only [clearNonPersistentDataInReport, h0, h1, h2, h3, h4, Bool.true_and, if_true,
    Bool.false_eq_true, if_false]
  rfl

end MyMouse
