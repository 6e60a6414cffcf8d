import MyMouse.Errno
import Mathlib.Algebra.Group.Nat.Defs

namespace MyMouse

structure MotionBurst where
  motion : BitVec 8
  deltaXL : BitVec 8
  deltaYL : BitVec 8
  deltaXyH : BitVec 8
  surfQual : BitVec 8
  deriving DecidableEq

def MotionBurst.zero : MotionBurst := ⟨0#8, 0#8, 0#8, 0#8, 0#8⟩

/-- What `adns7530_reg_read` makes of the burst register. -/
inductive BurstRead
  | received (burst : MotionBurst)
  | failed (err : Int)
  deriving DecidableEq

structure Adns7530Data where
  deltaX : BitVec 16
  deltaY : BitVec 16
  deriving DecidableEq

inductive SensorChannel
  | posDx
  | posDy
  | other
  deriving DecidableEq

def ADNS7530_LASER_FAULT_MASK : BitVec 8 := BitVec.twoPow 8 2
def ADNS7530_LASER_CFG_VALID_MASK : BitVec 8 := BitVec.twoPow 8 3
def ADNS7530_MOTION_FLAG : BitVec 8 := BitVec.twoPow 8 7

/-- The motion burst buffer after the read, whose result is not looked at. -/
def BurstRead.buffer : BurstRead → MotionBurst
  | .received burst => burst
  | .failed _ => .zero

/-- A 12-bit two's complement number in an `int16_t`. -/
def signExtendDelta (delta : BitVec 16) : BitVec 16 :=
  if delta.sshiftRight 11 ≠ 0#16 then (delta &&& 0x7FF#16) - 0x800#16 else delta

def adns7530SampleFetch (surfQualThreshold : Nat) (read : BurstRead) (data : Adns7530Data) :
    Int × Adns7530Data :=
  let burst := read.buffer
  if burst.motion &&& ADNS7530_LASER_FAULT_MASK ≠ 0#8 ∨
      burst.motion &&& ADNS7530_LASER_CFG_VALID_MASK = 0#8 then
    (-ENODATA, data)
  else if burst.motion &&& ADNS7530_MOTION_FLAG = 0#8 ∨ burst.surfQual.toNat < surfQualThreshold then
    (0, ⟨0#16, 0#16⟩)
  else
    let deltaX := burst.deltaXL.setWidth 16 ||| ((burst.deltaXyH &&& 0xF0#8).setWidth 16 <<< 4)
    let deltaY := burst.deltaYL.setWidth 16 ||| ((burst.deltaXyH &&& 0x0F#8).setWidth 16 <<< 8)
    (0, ⟨signExtendDelta deltaX, signExtendDelta deltaY⟩)

/-- The value is left as it is for any other channel. -/
def adns7530ChannelGet (chan : SensorChannel) (data : Adns7530Data) (val : Int) : Int × Int :=
  match chan with
  | .posDx => (0, data.deltaX.toInt)
  | .posDy => (0, data.deltaY.toInt)
  | .other => (-ENOTSUP, val)

def MotionBurst.deltaX (burst : MotionBurst) : BitVec 12 :=
  burst.deltaXyH.extractLsb' 4 4 ++ burst.deltaXL

def MotionBurst.deltaY (burst : MotionBurst) : BitVec 12 :=
  burst.deltaXyH.extractLsb' 0 4 ++ burst.deltaYL

/-- The burst came, without a laser fault and with a valid laser configuration. -/
def BurstRead.valid : BurstRead → Bool
  | .received burst => !burst.motion.getLsbD 2 && burst.motion.getLsbD 3
  | .failed _ => false

/-- The deltas to take from a read: none unless it is valid, shows motion, and has the
quality. -/
def BurstRead.motion (surfQualThreshold : Nat) : BurstRead → BitVec 12 × BitVec 12
  | .received burst =>
    if BurstRead.valid (.received burst) ∧ burst.motion.getLsbD 7 = true ∧
        surfQualThreshold ≤ burst.surfQual.toNat then
      (burst.deltaX, burst.deltaY)
    else (0#12, 0#12)
  | .failed _ => (0#12, 0#12)

namespace Adns7530Data

def deltas (data : Adns7530Data) : BitVec 12 × BitVec 12 :=
  (BitVec.ofInt 12 data.deltaX.toInt, BitVec.ofInt 12 data.deltaY.toInt)

end Adns7530Data

theorem ofInt_toInt_setWidth (delta : BitVec 16) :
    BitVec.ofInt 12 delta.toInt = delta.setWidth 12 :=
  BitVec.signExtend_eq_setWidth_of_le delta (by omega)

theorem signExtendDelta_setWidth {delta : BitVec 16} (h : delta.toNat < 2 ^ 12) :
    (signExtendDelta delta).setWidth 12 = delta.setWidth 12 := by
  have hmsb : delta.msb = false := by
    rw [BitVec.msb_eq_decide]
    simp only [decide_eq_false_iff_not]
    omega
  have hlow : (delta &&& 0x7FF#16).toNat = delta.toNat % 2 ^ 11 := by
    rw [BitVec.toNat_and]
    exact Nat.and_two_pow_sub_one_eq_mod _ 11
  unfold signExtendDelta
  rw [BitVec.sshiftRight_eq_of_msb_false hmsb]
  split
  next hne =>
    have hsign : 2 ^ 11 ≤ delta.toNat := by
      by_contra hlt
      apply hne
      apply BitVec.eq_of_toNat_eq
      rw [BitVec.toNat_ushiftRight, Nat.shiftRight_eq_div_pow]
      simp
      omega
    apply BitVec.eq_of_toNat_eq
    simp only [BitVec.toNat_setWidth, BitVec.toNat_sub, hlow, BitVec.toNat_ofNat]
    omega
  next => rfl

theorem highNibble (byte : BitVec 8) :
    (byte &&& 0xF0#8).setWidth 16 <<< 4 = (byte.extractLsb' 4 4).setWidth 16 <<< 8 := by
  revert byte
  decide +kernel

theorem lowNibble (byte : BitVec 8) :
    (byte &&& 0x0F#8).setWidth 16 <<< 8 = (byte.extractLsb' 0 4).setWidth 16 <<< 8 := by
  revert byte
  decide +kernel

theorem assembled_toNat (low : BitVec 8) (high : BitVec 4) :
    (low.setWidth 16 ||| high.setWidth 16 <<< 8).toNat = (high ++ low).toNat := by
  have hlow := low.isLt
  have hhigh := high.isLt
  have hsmall : high.toNat <<< 8 < 2 ^ 16 := by
    rw [Nat.shiftLeft_eq]
    omega
  rw [BitVec.toNat_or, BitVec.toNat_shiftLeft, BitVec.toNat_setWidth, BitVec.toNat_setWidth,
    BitVec.toNat_append, Nat.mod_eq_of_lt (by omega : low.toNat < 2 ^ 16),
    Nat.mod_eq_of_lt (by omega : high.toNat < 2 ^ 16), Nat.mod_eq_of_lt hsmall]
  exact Nat.or_comm _ _

theorem assembled_signExtend (low : BitVec 8) (high : BitVec 4) :
    BitVec.ofInt 12 (signExtendDelta (low.setWidth 16 ||| high.setWidth 16 <<< 8)).toInt =
      high ++ low := by
  have htoNat := assembled_toNat low high
  have hlt := (high ++ low).isLt
  rw [ofInt_toInt_setWidth, signExtendDelta_setWidth (by rw [htoNat]; exact hlt)]
  apply BitVec.eq_of_toNat_eq
  rw [BitVec.toNat_setWidth, htoNat]
  exact Nat.mod_eq_of_lt hlt

theorem and_twoPow_eq_zero {byte : BitVec 8} {i : Nat} (hi : i < 8) :
    byte &&& BitVec.twoPow 8 i = 0#8 ↔ byte.getLsbD i = false := by
  rw [BitVec.and_twoPow]
  split
  next hset =>
    have hne : BitVec.twoPow 8 i ≠ 0#8 := by
      intro hzero
      have hbit := congrArg (BitVec.getLsbD · i) hzero
      simp [hi] at hbit
    simp [hset, hne]
  next hclear => simpa using hclear

theorem fault_iff (read : BurstRead) :
    (read.buffer.motion &&& ADNS7530_LASER_FAULT_MASK ≠ 0#8 ∨
      read.buffer.motion &&& ADNS7530_LASER_CFG_VALID_MASK = 0#8) ↔ read.valid = false := by
  cases read with
  | received burst =>
    simp only [BurstRead.buffer, BurstRead.valid, ne_eq, ADNS7530_LASER_FAULT_MASK,
      ADNS7530_LASER_CFG_VALID_MASK, and_twoPow_eq_zero (show 2 < 8 by omega),
      and_twoPow_eq_zero (show 3 < 8 by omega), Bool.and_eq_false_iff]
    simp
  | failed err => simp [BurstRead.buffer, BurstRead.valid, MotionBurst.zero]

theorem motion_failed {surfQualThreshold : Nat} {read : BurstRead} (h : read.valid = false) :
    read.motion surfQualThreshold = (0#12, 0#12) := by
  cases read with
  | received burst => simp [BurstRead.motion, h]
  | failed err => rfl

/-- After a fetch the deltas are those of the read when it is valid, else those of before. -/
theorem sampleFetch_deltas (surfQualThreshold : Nat) (read : BurstRead) (data : Adns7530Data) :
    (adns7530SampleFetch surfQualThreshold read data).2.deltas =
      if read.valid then read.motion surfQualThreshold else data.deltas := by
  unfold adns7530SampleFetch
  simp only [fault_iff]
  cases hvalid : read.valid with
  | false => simp
  | true =>
    cases read with
    | failed err => simp [BurstRead.valid] at hvalid
    | received burst =>
      simp only [Bool.true_eq_false, if_false, if_true, BurstRead.motion, hvalid, true_and,
        BurstRead.buffer, ADNS7530_MOTION_FLAG, and_twoPow_eq_zero (show 7 < 8 by omega)]
      by_cases hquality : burst.motion.getLsbD 7 = false ∨ burst.surfQual.toNat < surfQualThreshold
      · have hnot : ¬ (burst.motion.getLsbD 7 = true ∧ surfQualThreshold ≤ burst.surfQual.toNat) := by
          rintro ⟨hflag, hle⟩
          rcases hquality with hclear | hlow
          · exact Bool.noConfusion (hflag.symm.trans hclear)
          · omega
        rw [if_pos hquality, if_neg hnot]
        rfl
      · have hgood : burst.motion.getLsbD 7 = true ∧ surfQualThreshold ≤ burst.surfQual.toNat := by
          obtain ⟨hflag, hle⟩ := not_or.mp hquality
          exact ⟨by simpa using hflag, by omega⟩
        rw [if_neg hquality, if_pos hgood, highNibble, lowNibble]
        exact Prod.ext (assembled_signExtend _ _) (assembled_signExtend _ _)

end MyMouse
