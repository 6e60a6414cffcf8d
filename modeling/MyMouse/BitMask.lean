import Mathlib.Data.List.Basic
import Mathlib.Data.List.Nodup

namespace BitMask

variable {w : Nat} {σ : Type}

def writeBit (mask : BitVec w) (pos : Nat) (b : Bool) : BitVec w :=
  if b then mask ||| BitVec.twoPow w pos else mask &&& ~~~BitVec.twoPow w pos

theorem getLsbD_writeBit {mask : BitVec w} {pos : Nat} {b : Bool} {i : Nat} (hi : i < w) :
    (writeBit mask pos b).getLsbD i = if i = pos then b else mask.getLsbD i := by
  cases b with
  | false =>
    by_cases h : i = pos
    · subst h; simp [writeBit, hi]
    · simp [writeBit, hi, h]
  | true =>
    by_cases h : i = pos
    · subst h; simp [writeBit, hi]
    · simp [writeBit, h, Ne.symm h]

theorem eq_append_iff {m n : Nat} {bits : BitVec (m + n)} {hi : BitVec m} {lo : BitVec n} :
    bits = hi ++ lo ↔ bits.extractLsb' n m = hi ∧ bits.extractLsb' 0 n = lo := by
  constructor
  · rintro rfl
    exact ⟨BitVec.extractLsb'_append_eq_left, BitVec.extractLsb'_append_eq_right⟩
  · rintro ⟨rfl, rfl⟩
    exact BitVec.extractLsb'_append_extractLsb'.symm

/-- The one-based position of the lowest set bit, 0 when no bit is set. -/
def findLsbSet (mask : BitVec w) : Nat :=
  if mask = 0#w then 0 else mask.ctz.toNat + 1

def getNextBitPos (mask : BitVec w) : Nat × BitVec w :=
  let pos := findLsbSet mask - 1
  (pos, writeBit mask pos false)

/-- Positions of the set bits, in ascending order. -/
def setBits (mask : BitVec w) : List Nat :=
  (List.range w).filter mask.getLsbD

theorem mem_setBits {mask : BitVec w} {i : Nat} : i ∈ setBits mask ↔ mask.getLsbD i = true := by
  simp only [setBits, List.mem_filter, List.mem_range, and_iff_right_iff_imp]
  exact BitVec.lt_of_getLsbD

theorem setBits_nodup (mask : BitVec w) : (setBits mask).Nodup :=
  List.nodup_range.filter _

theorem setBits_length_le (mask : BitVec w) : (setBits mask).length ≤ w := by
  have h := List.length_filter_le mask.getLsbD (List.range w)
  simpa only [setBits, List.length_range] using h

@[simp] theorem setBits_zero : setBits (0#w) = [] := by
  simp [setBits]

theorem setBits_eq_nil {mask : BitVec w} : setBits mask = [] ↔ mask = 0#w := by
  constructor
  · intro h
    apply BitVec.eq_of_getLsbD_eq
    intro i _
    have hi : i ∉ setBits mask := by simp [h]
    simpa [mem_setBits] using hi
  · rintro rfl
    exact setBits_zero

theorem getNextBitPos_fst {mask : BitVec w} (h : mask ≠ 0#w) :
    (getNextBitPos mask).1 = mask.ctz.toNat := by
  simp [getNextBitPos, findLsbSet, h]

theorem getNextBitPos_set {mask : BitVec w} (h : mask ≠ 0#w) :
    mask.getLsbD (getNextBitPos mask).1 = true := by
  rw [getNextBitPos_fst h]
  exact BitVec.getLsbD_true_ctz_of_ne_zero h

theorem getNextBitPos_lt {mask : BitVec w} (h : mask ≠ 0#w) : (getNextBitPos mask).1 < w :=
  BitVec.lt_of_getLsbD (getNextBitPos_set h)

theorem getNextBitPos_rest (mask : BitVec w) {i : Nat} (hi : i < w) :
    (getNextBitPos mask).2.getLsbD i =
      if i = (getNextBitPos mask).1 then false else mask.getLsbD i :=
  getLsbD_writeBit hi

theorem setBits_single {mask : BitVec w} {i : Nat} (h : ∀ j < w, mask.getLsbD j = decide (j = i))
    (hi : i < w) : setBits mask = [i] := by
  refine List.perm_singleton.mp ?_
  refine (List.perm_ext_iff_of_nodup (setBits_nodup mask) (List.nodup_singleton i)).mpr ?_
  intro j
  rw [mem_setBits, List.mem_singleton]
  constructor
  · intro hbit
    rw [h j (BitVec.lt_of_getLsbD hbit)] at hbit
    exact of_decide_eq_true hbit
  · rintro rfl
    rw [h j hi]
    exact decide_eq_true rfl

theorem setBits_cons {mask : BitVec w} (h : mask ≠ 0#w) :
    setBits mask = (getNextBitPos mask).1 :: setBits (getNextBitPos mask).2 := by
  have hpos := getNextBitPos_lt h
  have hset := getNextBitPos_set h
  have hctz := getNextBitPos_fst h
  have hrest : ∀ i, i < w → (getNextBitPos mask).2.getLsbD i =
      if i = (getNextBitPos mask).1 then false else mask.getLsbD i :=
    fun i hi => getNextBitPos_rest _ hi
  generalize (getNextBitPos mask).1 = pos at *
  generalize (getNextBitPos mask).2 = rest at *
  obtain ⟨k, rfl⟩ : ∃ k, w = pos + (1 + k) := ⟨w - pos - 1, by omega⟩
  have hlow : ∀ i ∈ List.range pos, mask.getLsbD i = false := by
    intro i hi
    exact BitVec.getLsbD_false_of_lt_ctz (by have := List.mem_range.mp hi; omega)
  have hsplit : List.range (pos + (1 + k)) = List.range pos ++ pos :: (List.range' (pos + 1) k) := by
    rw [List.range_eq_range', List.range_eq_range', ← List.range'_append_1, Nat.zero_add,
      Nat.add_comm 1 k, List.range'_succ]
  have hfirst : (List.range pos).filter mask.getLsbD = [] := by
    rw [List.filter_eq_nil_iff]
    intro i hi
    simp [hlow i hi]
  have hfirst' : (List.range pos).filter rest.getLsbD = [] := by
    rw [List.filter_eq_nil_iff]
    intro i hi
    have := List.mem_range.mp hi
    simp [hrest i (by omega), hlow i hi]
  have hlast : (List.range' (pos + 1) k).filter rest.getLsbD =
      (List.range' (pos + 1) k).filter mask.getLsbD := by
    apply List.filter_congr
    intro i hi
    have := List.mem_range'_1.mp hi
    rw [hrest i (by omega), if_neg (by omega)]
  have hat : rest.getLsbD pos = false := by rw [hrest pos (by omega), if_pos rfl]
  unfold setBits
  rw [hsplit, List.filter_append, List.filter_append, hfirst, hfirst', List.filter_cons,
    List.filter_cons, hset, hat, hlast]
  rfl

theorem setBits_rest_length {mask : BitVec w} (h : mask ≠ 0#w) :
    (setBits (getNextBitPos mask).2).length + 1 = (setBits mask).length := by
  rw [setBits_cons h, List.length_cons]

/-- `while (mask) { pos = get_next_bit_pos(&mask); s = body(s, pos); }`, cut off after
`fuel` turns. -/
def whileBitsFuel (body : σ → Nat → σ) : Nat → BitVec w → σ → σ
  | 0, _, s => s
  | fuel + 1, mask, s =>
    if mask = 0#w then s
    else whileBitsFuel body fuel (getNextBitPos mask).2 (body s (getNextBitPos mask).1)

def whileBits (body : σ → Nat → σ) (mask : BitVec w) (s : σ) : σ :=
  whileBitsFuel body w mask s

theorem whileBitsFuel_eq_foldl {body : σ → Nat → σ} {fuel : Nat} {mask : BitVec w} {s : σ}
    (h : (setBits mask).length ≤ fuel) :
    whileBitsFuel body fuel mask s = (setBits mask).foldl body s := by
  induction fuel generalizing mask s with
  | zero =>
    have hnil : setBits mask = [] := List.length_eq_zero_iff.mp (by omega)
    simp [whileBitsFuel, hnil]
  | succ fuel ih =>
    unfold whileBitsFuel
    by_cases hz : mask = 0#w
    · simp [hz]
    · have hlen := setBits_rest_length hz
      rw [if_neg hz, ih (by omega), setBits_cons hz, List.foldl_cons]

theorem whileBits_eq_foldl {body : σ → Nat → σ} {mask : BitVec w} {s : σ} :
    whileBits body mask s = (setBits mask).foldl body s :=
  whileBitsFuel_eq_foldl (setBits_length_le mask)

end BitMask
