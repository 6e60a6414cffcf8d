import MyMouse.Encoder
import MyMouse.OptSensor
import MyMouse.ReportMap

namespace MyMouse

open HidItems

/-- The nearest value the map declares for a field with this limit. -/
def saturate (limit value : Int) : Int := max (-limit) (min limit value)

/-- The read of the burst is valid, shows motion and has the quality. -/
def MotionBurst.Accepted (surfQualThreshold : Nat) (burst : MotionBurst) : Prop :=
  BurstRead.valid (.received burst) = true ∧ burst.motion.getLsbD 7 = true ∧
    surfQualThreshold ≤ burst.surfQual.toNat

instance (surfQualThreshold : Nat) (burst : MotionBurst) :
    Decidable (burst.Accepted surfQualThreshold) :=
  inferInstanceAs (Decidable (_ ∧ _ ∧ _))

/-- A report as the fillers of the sensor and of the encoder leave it. -/
def filledReport (surfQualThreshold : Nat) (call : OptSensorCall) (data : Adns7530Data)
    (encoder : Encoder) : HidReport :=
  (hidSrcEncoderReportFiller (hidSrcOptSensorReportFiller surfQualThreshold call data).1 encoder).1

/-- The values the report should have for a burst and a wheel delta. -/
def faithfulValues (report : HidReport) (burst : MotionBurst) (delta : Int) :
    List (Option Usage × Int) :=
  hostValues report.left report.right report.middle (saturate 127 delta)
    (saturate 2047 burst.deltaX.toInt) (saturate 2047 (-burst.deltaY.toInt))

/-- The deltas a wheel field of eight bits can take: those in range, and those out of range
whose low byte happens to be the limit. -/
def WheelFits (delta : Int) : Prop :=
  -127 ≤ delta ∧ delta ≤ 127 ∨ 127 < delta ∧ delta % 256 = 127 ∨ delta < -127 ∧ delta % 256 = 129

instance (delta : Int) : Decidable (WheelFits delta) := inferInstanceAs (Decidable (_ ∨ _))

theorem wheel_iff (delta : Int) :
    (BitVec.ofInt 8 delta).toInt = saturate 127 delta ↔ WheelFits delta := by
  rw [BitVec.toInt_ofInt, Int.bmod_def]
  unfold saturate WheelFits
  simp only [Nat.reducePow]
  split
  next hsmall => omega
  next hlarge => omega

theorem deltaX_iff (delta : BitVec 12) :
    delta.toInt = saturate 2047 delta.toInt ↔ delta.toInt ≠ -2048 := by
  have hle := BitVec.le_toInt delta
  have hlt := BitVec.toInt_lt (x := delta)
  unfold saturate
  omega

/-- The least value has no negative of twelve bits. -/
theorem deltaY_iff (delta : BitVec 12) :
    (-delta).toInt = saturate 2047 (-delta.toInt) ↔ delta.toInt ≠ -2048 := by
  have hle := BitVec.le_toInt delta
  have hlt := BitVec.toInt_lt (x := delta)
  rw [BitVec.toInt_neg, Int.bmod_def]
  unfold saturate
  simp only [Nat.reducePow, Nat.reduceSub] at hle hlt ⊢
  split
  next hsmall => omega
  next hlarge => omega

theorem filledReport_eq {surfQualThreshold : Nat} {burst : MotionBurst}
    (haccepted : burst.Accepted surfQualThreshold) (motPin : Bool) (report : HidReport)
    (data : Adns7530Data) (encoder : Encoder) :
    filledReport surfQualThreshold ⟨.received burst, motPin, report⟩ data encoder =
      { report with
        xDelta := burst.deltaX
        yDelta := -burst.deltaY
        wheelDelta := BitVec.ofInt 8 encoder.delta } := by
  have hcontribution := filler_contribution surfQualThreshold ⟨.received burst, motPin, report⟩ data
  have hmotion : BurstRead.motion surfQualThreshold (.received burst) =
      (burst.deltaX, burst.deltaY) := if_pos haccepted
  rw [filler_deltas, if_pos haccepted.1, hmotion] at hcontribution
  obtain ⟨hx, hy⟩ : _ = burst.deltaX ∧ _ = -burst.deltaY := Prod.mk.inj hcontribution
  have hfiller : (hidSrcOptSensorReportFiller surfQualThreshold
      ⟨.received burst, motPin, report⟩ data).1 =
      { report with xDelta := burst.deltaX, yDelta := -burst.deltaY } := by
    rw [← hx, ← hy]
    rfl
  rw [filledReport, hfiller]
  rfl

/-- A host reads the values of the burst and of the wheel exactly if no axis is at its least
value and the wheel delta fits. -/
theorem values_faithful_iff {surfQualThreshold : Nat} {burst : MotionBurst}
    (haccepted : burst.Accepted surfQualThreshold) (motPin : Bool) (report : HidReport)
    (data : Adns7530Data) (encoder : Encoder) :
    hostReport (filledReport surfQualThreshold ⟨.received burst, motPin, report⟩ data encoder) =
        some (faithfulValues report burst encoder.delta) ↔
      burst.deltaX.toInt ≠ -2048 ∧ burst.deltaY.toInt ≠ -2048 ∧ WheelFits encoder.delta := by
  rw [filledReport_eq haccepted, hostReport_eq, ← deltaX_iff, ← deltaY_iff, ← wheel_iff]
  unfold faithfulValues hostValues
  simp only [Option.some.injEq, List.cons.injEq, Prod.mk.injEq, true_and, and_true]
  constructor
  · rintro ⟨hwheel, hx, hy⟩
    exact ⟨hx, hy, hwheel⟩
  · rintro ⟨hx, hy, hwheel⟩
    exact ⟨hwheel, hx, hy⟩

/-- Two counts left and one up. -/
def slowBurst : MotionBurst := ⟨0x88#8, 0xFE#8, 0x01#8, 0xF0#8, 0xC8#8⟩

theorem values_faithful_slowBurst :
    hostReport (filledReport 120 ⟨.received slowBurst, true, .zero⟩ ⟨0#16, 0#16⟩ ⟨-3, 1⟩) =
      some (hostValues false false false (-3) (-2) (-1)) :=
  (@values_faithful_iff 120 slowBurst (by decide) true .zero ⟨0#16, 0#16⟩ ⟨-3, 1⟩).mpr (by decide)

/-- The least value on both axes. -/
def fastBurst : MotionBurst := ⟨0x88#8, 0x00#8, 0x00#8, 0x88#8, 0xC8#8⟩

theorem sign_flipped_fastBurst :
    fastBurst.Accepted 120 ∧ fastBurst.deltaX.toInt = -2048 ∧ fastBurst.deltaY.toInt = -2048 ∧
      hostReport (filledReport 120 ⟨.received fastBurst, true, .zero⟩ ⟨0#16, 0#16⟩ ⟨200, 0⟩) =
        some (hostValues false false false (-56) (-2048) (-2048)) ∧
      hostReport (filledReport 120 ⟨.received fastBurst, true, .zero⟩ ⟨0#16, 0#16⟩ ⟨200, 0⟩) ≠
        some (faithfulValues .zero fastBurst 200) := by
  rw [hostReport_eq]
  decide

end MyMouse
