import Mathlib.Data.List.Basic
import Mathlib.Data.List.GetD

namespace Crc

variable {w : Nat}

/-- One shift of a reflected CRC with this polynomial. -/
def shift (poly crc : BitVec w) : BitVec w :=
  if crc.getLsbD 0 then (crc >>> 1) ^^^ poly else crc >>> 1

/-- A word of data is taken into the low end and shifted through. -/
def feed (poly crc data : BitVec w) : BitVec w := Nat.repeat (shift poly) w (crc ^^^ data)

def ofBit (b : Bool) : BitVec w := if b then 1#w else 0#w

/-- A single bit of data. -/
def clock (poly crc : BitVec w) (b : Bool) : BitVec w := shift poly (crc ^^^ ofBit b)

/-- Bits in the order they are taken in, as a word. -/
def load : List Bool → BitVec w
  | [] => 0#w
  | b :: bs => (load bs <<< 1) ^^^ ofBit b

def bits (word : BitVec w) : List Bool := (List.range w).map word.getLsbD

/-- The bits of a stream, each word from its low end. -/
def streamBits (words : List (BitVec w)) : List Bool := words.flatMap bits

/-- Two streams of the same length differ, and only within `n` consecutive bits. -/
def BurstError (n : Nat) (sent received : List (BitVec w)) : Prop :=
  ∃ before burst burst' after : List Bool, streamBits sent = before ++ burst ++ after ∧
    streamBits received = before ++ burst' ++ after ∧ burst.length = burst'.length ∧
    burst.length ≤ n ∧ burst ≠ burst'

variable {poly : BitVec w}

theorem xor_swap (a b c d : BitVec w) : (a ^^^ b) ^^^ (c ^^^ d) = (a ^^^ c) ^^^ (b ^^^ d) :=
  calc (a ^^^ b) ^^^ (c ^^^ d)
    _ = a ^^^ (b ^^^ (c ^^^ d)) := BitVec.xor_assoc ..
    _ = a ^^^ (c ^^^ (b ^^^ d)) := by
      rw [← BitVec.xor_assoc b, BitVec.xor_comm b, BitVec.xor_assoc]
    _ = (a ^^^ c) ^^^ (b ^^^ d) := (BitVec.xor_assoc ..).symm

theorem shift_xor (a b : BitVec w) : shift poly (a ^^^ b) = shift poly a ^^^ shift poly b := by
  have hright : (a ^^^ b) >>> 1 = (a >>> 1) ^^^ (b >>> 1) := BitVec.ushiftRight_xor_distrib ..
  unfold shift
  rw [BitVec.getLsbD_xor, hright]
  cases a.getLsbD 0 with
  | false =>
    cases b.getLsbD 0 with
    | false => rfl
    | true => exact BitVec.xor_assoc ..
  | true =>
    cases b.getLsbD 0 with
    | false =>
      have hswap := xor_swap (a >>> 1) (b >>> 1) poly 0#w
      simpa using hswap
    | true =>
      have hswap := xor_swap (a >>> 1) poly (b >>> 1) poly
      simpa using hswap.symm

/-- Nothing but zero is shifted to zero, as the feedback reaches the high end. -/
theorem shift_eq_zero (hpoly : poly.getLsbD (w - 1) = true) {x : BitVec w}
    (h : shift poly x = 0#w) : x = 0#w := by
  have hw : 0 < w := Nat.zero_lt_of_lt (BitVec.lt_of_getLsbD hpoly)
  unfold shift at h
  split at h
  next =>
    have htop := congrArg (fun v : BitVec w => v.getLsbD (w - 1)) h
    simp only [BitVec.getLsbD_xor, BitVec.getLsbD_ushiftRight, hpoly, BitVec.getLsbD_zero] at htop
    rw [BitVec.getLsbD_of_ge x _ (by omega)] at htop
    cases htop
  next hlow =>
    apply BitVec.eq_of_getLsbD_eq
    intro i hi
    rw [BitVec.getLsbD_zero]
    cases i with
    | zero => simpa using hlow
    | succ i =>
      have hbit := congrArg (fun v : BitVec w => v.getLsbD i) h
      simp only [BitVec.getLsbD_ushiftRight, BitVec.getLsbD_zero] at hbit
      rwa [Nat.add_comm] at hbit

theorem shift_injective (hpoly : poly.getLsbD (w - 1) = true) {a b : BitVec w}
    (h : shift poly a = shift poly b) : a = b := by
  have hzero : shift poly (a ^^^ b) = 0#w := by rw [shift_xor, h, BitVec.xor_self]
  exact BitVec.xor_eq_zero_iff.mp (shift_eq_zero hpoly hzero)

theorem shifts_injective (hpoly : poly.getLsbD (w - 1) = true) (n : Nat) {a b : BitVec w}
    (h : Nat.repeat (shift poly) n a = Nat.repeat (shift poly) n b) : a = b := by
  induction n with
  | zero => exact h
  | succ n ih => exact ih (shift_injective hpoly h)

theorem getLsbD_ofBit (b : Bool) {i : Nat} (hi : i < w) :
    (ofBit b : BitVec w).getLsbD i = (decide (i = 0) && b) := by
  cases b with
  | false => simp [ofBit]
  | true => simp [ofBit, hi]

theorem getLsbD_load (bs : List Bool) {i : Nat} (hi : i < w) :
    (load bs : BitVec w).getLsbD i = bs.getD i false := by
  induction bs generalizing i with
  | nil => simp [load]
  | cons b bs ih =>
    rw [load, BitVec.getLsbD_xor, getLsbD_ofBit b hi, BitVec.getLsbD_shiftLeft]
    cases i with
    | zero => simp
    | succ i =>
      have hrest := ih (show i < w by omega)
      simp [hi, hrest]

theorem load_bits (word : BitVec w) : load (bits word) = word := by
  apply BitVec.eq_of_getLsbD_eq
  intro i hi
  rw [getLsbD_load _ hi, List.getD_eq_getElem _ _ (by simp [bits, hi])]
  simp [bits]

theorem load_injective {bs bs' : List Bool} (hlen : bs.length = bs'.length) (hw : bs.length ≤ w)
    (h : (load bs : BitVec w) = load bs') : bs = bs' := by
  apply List.ext_getElem hlen
  intro i hi hi'
  have hbit : (load bs : BitVec w).getLsbD i = (load bs' : BitVec w).getLsbD i := by rw [h]
  rwa [getLsbD_load bs (by omega), getLsbD_load bs' (by omega), List.getD_eq_getElem _ _ hi,
    List.getD_eq_getElem _ _ hi'] at hbit

/-- Nothing is fed back while zeros stand at the low end. -/
theorem shift_shiftLeft {x : BitVec w} (h : x.getLsbD (w - 1) = false) :
    shift poly (x <<< 1) = x := by
  have hlow : (x <<< 1).getLsbD 0 = false := by simp
  unfold shift
  rw [hlow, if_neg (by simp)]
  apply BitVec.eq_of_getLsbD_eq
  intro i hi
  rw [BitVec.getLsbD_ushiftRight, BitVec.getLsbD_shiftLeft]
  by_cases htop : 1 + i < w
  · simp [htop]
  · have hlast : i = w - 1 := by omega
    rw [hlast, h]
    simp
    omega

theorem repeat_succ (f : BitVec w → BitVec w) (n : Nat) (x : BitVec w) :
    Nat.repeat f (n + 1) x = Nat.repeat f n (f x) := by
  induction n with
  | zero => rfl
  | succ n ih =>
    change f (Nat.repeat f (n + 1) x) = f (Nat.repeat f n (f x))
    rw [ih]

/-- Up to a word of data may be taken in at once. -/
theorem clocks_eq (bs : List Bool) (hlen : bs.length ≤ w) (crc : BitVec w) :
    bs.foldl (clock poly) crc = Nat.repeat (shift poly) bs.length (crc ^^^ load bs) := by
  induction bs generalizing crc with
  | nil => simp [load, Nat.repeat]
  | cons b bs ih =>
    simp only [List.length_cons] at hlen
    have hhigh : (load bs : BitVec w).getLsbD (w - 1) = false := by
      rw [getLsbD_load bs (by omega), List.getD_eq_default _ _ (by omega)]
    have hload : crc ^^^ load (b :: bs) = (crc ^^^ ofBit b) ^^^ (load bs <<< 1) := by
      rw [load, BitVec.xor_comm (load bs <<< 1), BitVec.xor_assoc]
    rw [List.foldl_cons, ih (by omega), List.length_cons, repeat_succ, hload, shift_xor,
      shift_shiftLeft hhigh]
    rfl

theorem bits_length (word : BitVec w) : (bits word).length = w := by simp [bits]

theorem feed_eq_clocks (crc data : BitVec w) :
    feed poly crc data = (bits data).foldl (clock poly) crc := by
  rw [clocks_eq _ (Nat.le_of_eq (bits_length data)), bits_length, load_bits]
  rfl

theorem feeds_eq_clocks (words : List (BitVec w)) (crc : BitVec w) :
    words.foldl (feed poly) crc = (streamBits words).foldl (clock poly) crc := by
  induction words generalizing crc with
  | nil => rfl
  | cons word rest ih =>
    rw [List.foldl_cons, ih, feed_eq_clocks]
    simp only [streamBits, List.flatMap_cons, List.foldl_append]

theorem clocks_injective (hpoly : poly.getLsbD (w - 1) = true) (bs : List Bool) {a b : BitVec w}
    (h : bs.foldl (clock poly) a = bs.foldl (clock poly) b) : a = b := by
  induction bs generalizing a b with
  | nil => exact h
  | cons bit bs ih =>
    have hstep := shift_injective hpoly (ih h)
    exact (BitVec.xor_left_inj _).mp hstep

/-- A burst no longer than the register changes the remainder. -/
theorem burst_detected (hpoly : poly.getLsbD (w - 1) = true) {sent received : List (BitVec w)}
    (burst : BurstError w sent received) (crc : BitVec w) :
    received.foldl (feed poly) crc ≠ sent.foldl (feed poly) crc := by
  obtain ⟨before, bs, bs', after, hsent, hreceived, hlen, hshort, hne⟩ := burst
  intro hsame
  rw [feeds_eq_clocks, feeds_eq_clocks, hsent, hreceived] at hsame
  simp only [List.foldl_append] at hsame
  have hinside := clocks_injective hpoly after hsame
  rw [clocks_eq bs' (by omega), clocks_eq bs hshort, ← hlen] at hinside
  have hloads := shifts_injective hpoly _ hinside
  have hload : (load bs' : BitVec w) = load bs := (BitVec.xor_right_inj _).mp hloads
  exact hne (load_injective hlen.symm (by omega) hload).symm

/-- A word sent after a stream leaves no remainder exactly if it is the remainder. -/
theorem feed_eq_zero_iff (hpoly : poly.getLsbD (w - 1) = true) (crc word : BitVec w) :
    feed poly crc word = 0#w ↔ crc = word := by
  have hzeros : ∀ n, Nat.repeat (shift poly) n 0#w = 0#w := by
    intro n
    induction n with
    | zero => rfl
    | succ n ih =>
      change shift poly (Nat.repeat (shift poly) n 0#w) = 0#w
      rw [ih]
      simp [shift]
  unfold feed
  constructor
  · intro h
    rw [← hzeros w] at h
    exact BitVec.xor_eq_zero_iff.mp (shifts_injective hpoly w h)
  · rintro rfl
    rw [BitVec.xor_self, hzeros]

end Crc
