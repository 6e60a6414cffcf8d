import MyMouse.AvrComm
import MyMouse.HidItems
import MyMouse.HidReport

namespace MyMouse

open HidItems

/-- The packed bytes of a report; the two deltas share bytes 2 to 4. -/
def HidReport.bytes (report : HidReport) : List (BitVec 8) :=
  [report.unused ++ BitVec.ofBool report.middle ++ BitVec.ofBool report.right ++
      BitVec.ofBool report.left,
    report.wheelDelta,
    report.xDelta.extractLsb' 0 8,
    report.yDelta.extractLsb' 0 4 ++ report.xDelta.extractLsb' 8 4,
    report.yDelta.extractLsb' 4 8]

def buttonUsage (n : Nat) : Usage := ⟨0x09, n⟩
def wheelUsage : Usage := ⟨0x01, 0x38⟩
def xUsage : Usage := ⟨0x01, 0x30⟩
def yUsage : Usage := ⟨0x01, 0x31⟩

def buttonField (n : Nat) : Field :=
  { usage := some (buttonUsage n), reportId := 1, offset := n - 1, size := 1, logicalMinimum := 0,
    logicalMaximum := 1, constant := false, isVariable := true, relative := false }

def deltaField (usage : Usage) (offset size : Nat) (limit : Int) : Field :=
  { usage := some usage, reportId := 1, offset := offset, size := size, logicalMinimum := -limit,
    logicalMaximum := limit, constant := false, isVariable := true, relative := true }

def paddingField : Field :=
  { usage := none, reportId := 1, offset := 3, size := 5, logicalMinimum := 0, logicalMaximum := 1,
    constant := true, isVariable := false, relative := false }

/-- The layout the report map describes. -/
def mouseLayout : List Field :=
  [buttonField 1, buttonField 2, buttonField 3, paddingField, deltaField wheelUsage 8 8 127,
    deltaField xUsage 16 12 2047, deltaField yUsage 28 12 2047]

theorem interpret_hidReportMap : interpret hidReportMap = some mouseLayout := by decide

/-- The usages and values a host takes from a report. -/
def hostValues (left right middle : Bool) (wheel x y : Int) : List (Option Usage × Int) :=
  [(some (buttonUsage 1), left.toNat), (some (buttonUsage 2), right.toNat),
    (some (buttonUsage 3), middle.toNat), (some wheelUsage, wheel), (some xUsage, x),
    (some yUsage, y)]

theorem toNat_append_add {m n : Nat} (hi : BitVec m) (lo : BitVec n) :
    (hi ++ lo).toNat = hi.toNat * 2 ^ n + lo.toNat := by
  rw [BitVec.toNat_append, ← Nat.shiftLeft_eq, Nat.shiftLeft_add_eq_or_of_lt lo.isLt]

theorem buttons_toNat (report : HidReport) :
    (report.unused ++ BitVec.ofBool report.middle ++ BitVec.ofBool report.right ++
        BitVec.ofBool report.left : BitVec 8).toNat =
      8 * report.unused.toNat + 4 * report.middle.toNat + 2 * report.right.toNat +
        report.left.toNat := by
  have happend : (report.unused ++ BitVec.ofBool report.middle ++ BitVec.ofBool report.right ++
      BitVec.ofBool report.left).toNat =
      ((report.unused.toNat * 2 ^ 1 + report.middle.toNat) * 2 ^ 1 + report.right.toNat) * 2 ^ 1 +
        report.left.toNat := by
    rw [toNat_append_add, toNat_append_add, toNat_append_add]
    simp only [BitVec.toNat_ofBool]
  refine happend.trans ?_
  omega

/-- The report as one number: its fields one after the other. -/
theorem leNat_bytes (report : HidReport) :
    leNat report.bytes =
      8 * report.unused.toNat + 4 * report.middle.toNat + 2 * report.right.toNat +
        report.left.toNat + 2 ^ 8 * report.wheelDelta.toNat + 2 ^ 16 * report.xDelta.toNat +
        2 ^ 28 * report.yDelta.toNat := by
  have hx := report.xDelta.isLt
  have hy := report.yDelta.isLt
  have hbuttons := buttons_toNat report
  have hshared : (report.yDelta.extractLsb' 0 4 ++ report.xDelta.extractLsb' 8 4 : BitVec 8).toNat =
      report.yDelta.toNat % 16 * 16 + report.xDelta.toNat / 256 := by
    refine (toNat_append_add _ _).trans ?_
    simp only [BitVec.extractLsb'_toNat, Nat.shiftRight_eq_div_pow]
    omega
  have hlow : (report.xDelta.extractLsb' 0 8).toNat = report.xDelta.toNat % 256 := by
    simp only [BitVec.extractLsb'_toNat, Nat.shiftRight_eq_div_pow]
    omega
  have hhigh : (report.yDelta.extractLsb' 4 8).toNat = report.yDelta.toNat / 16 := by
    simp only [BitVec.extractLsb'_toNat, Nat.shiftRight_eq_div_pow]
    omega
  simp only [HidReport.bytes, leNat, hbuttons, hshared, hlow, hhigh]
  omega

theorem deltaField_decode {w : Nat} (usage : Usage) (offset : Nat) {limit : Int} (hlimit : 0 < limit)
    (delta : BitVec w) {bytes : List (BitVec 8)}
    (h : leNat bytes / 2 ^ offset % 2 ^ w = delta.toNat) :
    (deltaField usage offset w limit).decode bytes = delta.toInt := by
  have hsigned : (deltaField usage offset w limit).logicalMinimum < 0 := by
    change -limit < 0
    omega
  unfold Field.decode
  rw [if_pos hsigned, ← signedOf_toNat, ← h]
  exact (signedOf_mod _ _).symm

theorem buttonField_decode (n : Nat) (pressed : Bool) {bytes : List (BitVec 8)}
    (h : leNat bytes / 2 ^ (n - 1) % 2 = pressed.toNat) :
    (buttonField n).decode bytes = pressed.toNat := by
  have hunsigned : ¬ (buttonField n).logicalMinimum < 0 := Int.lt_irrefl 0
  unfold Field.decode
  rw [if_neg hunsigned]
  exact congrArg _ h

/-- What a host makes of any report. -/
theorem decode_mouseLayout (report : HidReport) :
    decodeReport mouseLayout HID_REPORT_ID.toNat report.bytes =
      hostValues report.left report.right report.middle report.wheelDelta.toInt
        report.xDelta.toInt report.yDelta.toInt := by
  have hleft := report.left.toNat_lt
  have hright := report.right.toNat_lt
  have hmiddle := report.middle.toNat_lt
  have hunused := report.unused.isLt
  have hwheel := report.wheelDelta.isLt
  have hx := report.xDelta.isLt
  have hy := report.yDelta.isLt
  have hnumber := leNat_bytes report
  have hfields : decodeReport mouseLayout HID_REPORT_ID.toNat report.bytes =
      [(some (buttonUsage 1), (buttonField 1).decode report.bytes),
        (some (buttonUsage 2), (buttonField 2).decode report.bytes),
        (some (buttonUsage 3), (buttonField 3).decode report.bytes),
        (some wheelUsage, (deltaField wheelUsage 8 8 127).decode report.bytes),
        (some xUsage, (deltaField xUsage 16 12 2047).decode report.bytes),
        (some yUsage, (deltaField yUsage 28 12 2047).decode report.bytes)] := rfl
  rw [hfields, buttonField_decode 1 report.left (by rw [hnumber]; omega),
    buttonField_decode 2 report.right (by rw [hnumber]; omega),
    buttonField_decode 3 report.middle (by rw [hnumber]; omega),
    deltaField_decode wheelUsage 8 (by decide) report.wheelDelta (by rw [hnumber]; omega),
    deltaField_decode xUsage 16 (by decide) report.xDelta (by rw [hnumber]; omega),
    deltaField_decode yUsage 28 (by decide) report.yDelta (by rw [hnumber]; omega)]
  rfl

/-- A report as a host reads it by the report map. -/
def hostReport (report : HidReport) : Option (List (Option Usage × Int)) :=
  (interpret hidReportMap).map (fun layout =>
    decodeReport layout HID_REPORT_ID.toNat report.bytes)

theorem hostReport_eq (report : HidReport) :
    hostReport report = some (hostValues report.left report.right report.middle
      report.wheelDelta.toInt report.xDelta.toInt report.yDelta.toInt) := by
  rw [hostReport, interpret_hidReportMap, Option.map_some, decode_mouseLayout]

/-- The report map and the report agree: on their length, and on every value in the ranges the
map declares. -/
theorem reportMap_agrees :
    ∃ layout, interpret hidReportMap = some layout ∧
      (∀ report : HidReport, bitLength layout HID_REPORT_ID.toNat = 8 * report.bytes.length) ∧
      ∀ (left right middle : Bool) (unused : BitVec 5) (wheel x y : Int),
        -127 ≤ wheel ∧ wheel ≤ 127 → -2047 ≤ x ∧ x ≤ 2047 → -2047 ≤ y ∧ y ≤ 2047 →
        decodeReport layout HID_REPORT_ID.toNat
            (HidReport.mk left right middle unused (BitVec.ofInt 8 wheel) (BitVec.ofInt 12 x)
              (BitVec.ofInt 12 y)).bytes =
          hostValues left right middle wheel x y := by
  refine ⟨mouseLayout, interpret_hidReportMap, fun _ => rfl, ?_⟩
  intro left right middle unused wheel x y hwheel hx hy
  rw [decode_mouseLayout]
  simp only [BitVec.toInt_ofInt]
  rw [Int.bmod_eq_of_le (by omega) (by omega), Int.bmod_eq_of_le (by omega) (by omega),
    Int.bmod_eq_of_le (by omega) (by omega)]

theorem reportMap_agrees_limits :
    ∃ layout, interpret hidReportMap = some layout ∧
      decodeReport layout HID_REPORT_ID.toNat [0x05#8, 0x81#8, 0xFF#8, 0x17#8, 0x80#8] =
        hostValues true false true (-127) 2047 (-2047) := by
  obtain ⟨layout, hlayout, -, hdecode⟩ := reportMap_agrees
  have hbytes : (HidReport.mk true false true 0#5 (BitVec.ofInt 8 (-127)) (BitVec.ofInt 12 2047)
      (BitVec.ofInt 12 (-2047))).bytes = [0x05#8, 0x81#8, 0xFF#8, 0x17#8, 0x80#8] := by decide
  refine ⟨layout, hlayout, ?_⟩
  rw [← hbytes]
  exact hdecode true false true 0#5 (-127) 2047 (-2047) (by decide) (by decide) (by decide)

end MyMouse
