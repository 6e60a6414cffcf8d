import MyMouse.Memory
import Mathlib.Algebra.Group.Nat.Defs

namespace MyMouse

open Memory

/-- `Data` of Foundation. -/
abbrev Data := List (BitVec 8)

namespace MouseConnect

def subdata (data : Data) (lower upper : Nat) : Data :=
  (data.drop lower).take (upper - lower)

/-- `stride(from: start, to: stop, by: step)`. -/
def stride (start stop step : Nat) : List Nat :=
  (List.range ((stop - start + (step - 1)) / step)).map (fun j => start + j * step)

theorem subdata_length_le (data : Data) (i mtu : Nat) :
    (subdata data i (min (i + mtu) data.length)).length ≤ mtu := by
  simp only [subdata, List.length_take, List.length_drop]
  omega

/-- The values `push` writes, in order; `mtu` is what the peripheral allows, but at most 62. -/
def push (mtu : Nat) (data : Data) : List Data :=
  if data.length > mtu then
    (stride 0 data.length mtu).flatMap
      (fun i => push mtu (subdata data i (min (i + mtu) data.length)))
  else [data]
termination_by data.length
decreasing_by
  have := subdata_length_le data i mtu
  omega

/-- What `Push` hands to `push` for a file of this content. -/
def pushData (content : Data) : Data :=
  let size := BitVec.ofNat 64 content.length
  let byte (shift : Nat) : BitVec 8 := ((size >>> shift) &&& 0xFF#64).setWidth 8
  [0x77#8, 0x72#8, byte 0, byte 8, byte 16, byte 24] ++ content

/-- The size of the file a header announces. -/
def headerSize (header : Data) : BitVec 32 :=
  let byte (i : Nat) : BitVec 32 := (header.getD i 0#8).setWidth 32
  byte 2 + byte 3 <<< 8 + byte 4 <<< 16 + byte 5 <<< 24

/-- How `Pull` ends: in its wait for the next notification, with an error, or with a file, and
then with the notifications it has left. -/
inductive PullOutcome
  | waiting
  | nilForHeader
  | badHeader
  | nilForData
  | saved (contents : Data) (left : List (Option Data))
  deriving DecidableEq

/-- The loop of `Pull` over the values its calls of `pull` return. -/
def collect (size : BitVec 32) (contents : Data) : List (Option Data) → PullOutcome
  | [] => if contents.length < size.toNat then .waiting else .saved contents []
  | value :: left =>
    if contents.length < size.toNat then
      match value with
      | none => .nilForData
      | some newdata => collect size (contents ++ newdata) left
    else .saved contents (value :: left)

def pullRun : List (Option Data) → PullOutcome
  | [] => .waiting
  | none :: _ => .nilForHeader
  | some header :: left =>
    if header.length < 6 ∨ header.getD 0 0#8 ≠ 0x77#8 ∨ header.getD 1 0#8 ≠ 0x72#8 then .badHeader
    else collect (headerSize header) (header.drop 6) left

/-- The four bytes of a number, the lowest first. -/
def littleEndian (n : Nat) : Data :=
  (List.range 4).map (fun k => BitVec.ofNat 8 (n / 256 ^ k))

theorem div_ceil_succ {n m : Nat} (hm : 0 < m) (hn : 0 < n) :
    (n + (m - 1)) / m = (n - m + (m - 1)) / m + 1 := by
  rcases Nat.le_total m n with h | h
  · rw [← Nat.add_div_right _ hm]
    congr 1
    omega
  · have hnone : n - m + (m - 1) < m := by omega
    rw [Nat.div_eq_of_lt hnone]
    exact Nat.div_eq_of_lt_le (by omega) (by omega)

/-- Cutting at the multiples of `m` is cutting off pieces of length `m` one after another. -/
theorem pieces_eq_chunks {α : Type} {m : Nat} (hm : 0 < m) (xs : List α) :
    (List.range ((xs.length + (m - 1)) / m)).map (fun j => (xs.drop (j * m)).take m) =
      chunks m xs := by
  induction hlen : xs.length using Nat.strongRecOn generalizing xs with
  | _ len ih =>
    by_cases hxs : xs = []
    · subst hxs
      have hnone : len + (m - 1) < m := by
        simp only [List.length_nil] at hlen
        omega
      rw [Nat.div_eq_of_lt hnone]
      rfl
    · have hpos := List.length_pos_of_ne_nil hxs
      have hdrop : (xs.drop m).length = len - m := by rw [List.length_drop, hlen]
      have hrest := ih (len - m) (by omega) (xs.drop m) hdrop
      rw [chunks_of_ne_nil hm hxs, ← hrest, div_ceil_succ hm (by omega), List.range_succ_eq_map,
        List.map_cons, List.map_map, Nat.zero_mul, List.drop_zero]
      congr 1
      apply List.map_congr_left
      intro j _
      simp only [Function.comp_apply, List.drop_drop, Nat.succ_mul, Nat.add_comm m]

theorem subdata_min (data : Data) (i mtu : Nat) :
    subdata data i (min (i + mtu) data.length) = (data.drop i).take mtu := by
  unfold subdata
  rcases Nat.le_total (i + mtu) data.length with h | h
  · rw [Nat.min_eq_left h]
    congr 1
    omega
  · rw [Nat.min_eq_right h, List.take_of_length_le (by simp), List.take_of_length_le]
    rw [List.length_drop]
    omega

theorem push_short {mtu : Nat} {data : Data} (h : data.length ≤ mtu) : push mtu data = [data] := by
  rw [push, if_neg (by omega)]

/-- The recursion is one level deep. -/
theorem push_long {mtu : Nat} {data : Data} (h : mtu < data.length) :
    push mtu data =
      (List.range ((data.length + (mtu - 1)) / mtu)).map (fun j => (data.drop (j * mtu)).take mtu) := by
  have hone : (fun i => push mtu (subdata data i (min (i + mtu) data.length))) =
      fun i => [(data.drop i).take mtu] := by
    funext i
    rw [push_short (subdata_length_le data i mtu), subdata_min]
  rw [push, if_pos h, hone, ← List.map_eq_flatMap, stride, List.map_map]
  simp

theorem push_eq_chunks {mtu : Nat} {data : Data} (hmtu : 0 < mtu) (hdata : data ≠ []) :
    push mtu data = chunks mtu data := by
  rcases Nat.lt_or_ge mtu data.length with h | h
  · rw [push_long h, pieces_eq_chunks hmtu]
  · rw [push_short h, chunks_of_ne_nil hmtu hdata, List.take_of_length_le h,
      List.drop_of_length_le h, chunks_nil]

theorem size_byte (n shift : Nat) (hn : n < 2 ^ 64) :
    ((BitVec.ofNat 64 n >>> shift) &&& 0xFF#64).setWidth 8 = BitVec.ofNat 8 (n / 2 ^ shift) := by
  apply BitVec.eq_of_toNat_eq
  have hmask : (0xFF#64).toNat = 2 ^ 8 - 1 := rfl
  rw [BitVec.toNat_setWidth, BitVec.toNat_and, BitVec.toNat_ushiftRight, BitVec.toNat_ofNat,
    Nat.mod_eq_of_lt hn, Nat.shiftRight_eq_div_pow, hmask, Nat.and_two_pow_sub_one_eq_mod,
    Nat.mod_mod, BitVec.toNat_ofNat]

/-- The header of a file is "wr" and its length. -/
theorem pushData_eq {content : Data} (h : content.length < 2 ^ 32) :
    pushData content = [0x77#8, 0x72#8] ++ littleEndian content.length ++ content := by
  have hsize : content.length < 2 ^ 64 := by omega
  unfold pushData
  simp only [size_byte _ _ hsize]
  rfl

theorem headerSize_toNat (b0 b1 b2 b3 b4 b5 : BitVec 8) (rest : Data) :
    (headerSize (b0 :: b1 :: b2 :: b3 :: b4 :: b5 :: rest)).toNat =
      b2.toNat + b3.toNat * 256 + b4.toNat * 65536 + b5.toNat * 16777216 := by
  have h2 := b2.isLt
  have h3 := b3.isLt
  have h4 := b4.isLt
  have h5 := b5.isLt
  have hbyte (b : BitVec 8) (shift : Nat) (hshift : shift ≤ 24) :
      (b.setWidth 32 <<< shift).toNat = b.toNat * 2 ^ shift := by
    have hb := b.isLt
    have hpow : 2 ^ shift ≤ 2 ^ 24 := Nat.pow_le_pow_right (by decide) hshift
    have hproduct : b.toNat * 2 ^ shift < 2 ^ 32 := by
      calc b.toNat * 2 ^ shift ≤ b.toNat * 2 ^ 24 := Nat.mul_le_mul_left _ hpow
        _ < 2 ^ 32 := by omega
    have hwide : b.toNat % 2 ^ 32 = b.toNat := Nat.mod_eq_of_lt (by omega)
    rw [BitVec.toNat_shiftLeft, BitVec.toNat_setWidth, hwide, Nat.shiftLeft_eq,
      Nat.mod_eq_of_lt hproduct]
  unfold headerSize
  simp only [List.getD_cons_succ, List.getD_cons_zero, BitVec.toNat_add,
    hbyte b3 8 (by decide), hbyte b4 16 (by decide), hbyte b5 24 (by decide),
    BitVec.toNat_setWidth]
  omega

theorem headerSize_pushData {content : Data} (h : content.length < 2 ^ 32) :
    (headerSize (pushData content)).toNat = content.length := by
  rw [pushData_eq h]
  change (headerSize (0x77#8 :: 0x72#8 :: BitVec.ofNat 8 (content.length / 256 ^ 0) ::
    BitVec.ofNat 8 (content.length / 256 ^ 1) :: BitVec.ofNat 8 (content.length / 256 ^ 2) ::
    BitVec.ofNat 8 (content.length / 256 ^ 3) :: content)).toNat = content.length
  rw [headerSize_toNat]
  simp only [BitVec.toNat_ofNat]
  omega

/-- Six bytes of the stream are enough to tell its header. -/
theorem headerSize_append {first more : Data} (h : 6 ≤ first.length) :
    headerSize first = headerSize (first ++ more) := by
  unfold headerSize
  simp only [List.getD_append first more 0#8 2 (by omega), List.getD_append first more 0#8 3 (by omega),
    List.getD_append first more 0#8 4 (by omega), List.getD_append first more 0#8 5 (by omega)]

/-- The loop takes notifications up to the one that completes the file. -/
theorem collect_eq {size : BitVec 32} {contents : Data} {left : List Data}
    (nonempty : ∀ data ∈ left, data ≠ [])
    (hsize : contents.length + left.flatten.length = size.toNat) :
    collect size contents (left.map some) = .saved (contents ++ left.flatten) [] := by
  induction left generalizing contents with
  | nil =>
    have hdone : ¬ contents.length < size.toNat := by
      simp only [List.flatten_nil, List.length_nil] at hsize
      omega
    rw [List.map_nil, collect, if_neg hdone]
    simp
  | cons newdata left ih =>
    have hnew := List.length_pos_of_ne_nil (nonempty newdata List.mem_cons_self)
    rw [List.flatten_cons, List.length_append] at hsize
    have hmore : contents.length < size.toNat := by omega
    have hrest : (contents ++ newdata).length + left.flatten.length = size.toNat := by
      rw [List.length_append]
      omega
    have hleft := ih (fun data hdata => nonempty data (List.mem_cons_of_mem _ hdata)) hrest
    rw [List.map_cons, collect, if_pos hmore, hleft, List.flatten_cons, List.append_assoc]

theorem pullRun_eq {content first : Data} {rest : List Data} (hcontent : content.length < 2 ^ 32)
    (hfirst : 6 ≤ first.length) (nonempty : ∀ data ∈ rest, data ≠ [])
    (stream : (first :: rest).flatten = pushData content) :
    pullRun ((first :: rest).map some) = .saved content [] := by
  rw [List.flatten_cons] at stream
  have hget (i : Nat) (hi : i < 6) : first.getD i 0#8 = (pushData content).getD i 0#8 := by
    rw [← stream, List.getD_append first _ 0#8 i (by omega)]
  have hdrop : first.drop 6 ++ rest.flatten = content := by
    rw [← List.drop_append_of_le_length hfirst, stream]
    rfl
  have hheader : ¬ (first.length < 6 ∨ first.getD 0 0#8 ≠ 0x77#8 ∨ first.getD 1 0#8 ≠ 0x72#8) := by
    rw [hget 0 (by decide), hget 1 (by decide)]
    rintro (short | wrong | wrong)
    · omega
    · exact wrong rfl
    · exact wrong rfl
  have hsize : (first.drop 6).length + rest.flatten.length = (headerSize first).toNat := by
    rw [@headerSize_append first rest.flatten hfirst, stream, headerSize_pushData hcontent,
      ← List.length_append, hdrop]
  rw [List.map_cons, pullRun, if_neg hheader, collect_eq nonempty hsize, hdrop]

theorem pushData_ne_nil (content : Data) : pushData content ≠ [] := by
  simp [pushData]

/-- What `Push` writes is the header and the file in pieces, and `Pull` gets the file back from
any notifications that carry the same bytes. -/
theorem file_round_trip {content : Data} (hcontent : content.length < 2 ^ 32) {mtu : Nat}
    (hmtu : 1 ≤ mtu) :
    ((push mtu (pushData content)).flatten =
        [0x77#8, 0x72#8] ++ littleEndian content.length ++ content ∧
      ∀ write ∈ push mtu (pushData content), write ≠ [] ∧ write.length ≤ mtu) ∧
    ∀ first rest, 6 ≤ first.length → (∀ data ∈ first :: rest, data ≠ []) →
      (first :: rest).flatten = [0x77#8, 0x72#8] ++ littleEndian content.length ++ content →
      pullRun ((first :: rest).map some) = .saved content [] := by
  rw [push_eq_chunks hmtu (pushData_ne_nil content), chunks_flatten hmtu, ← pushData_eq hcontent]
  refine ⟨⟨rfl, ?_⟩, ?_⟩
  · intro write hwrite
    exact mem_chunks hmtu hwrite
  · intro first rest hfirst nonempty stream
    exact pullRun_eq hcontent hfirst
      (fun data hdata => nonempty data (List.mem_cons_of_mem _ hdata)) stream

/-- Five bytes, written in three pieces and coming back in three others. -/
theorem file_round_trip_split :
    (push 4 (pushData [0x10#8, 0x20#8, 0x30#8, 0x40#8, 0x50#8])).flatten =
      [0x77#8, 0x72#8, 5#8, 0#8, 0#8, 0#8, 0x10#8, 0x20#8, 0x30#8, 0x40#8, 0x50#8] ∧
    (∀ write ∈ push 4 (pushData [0x10#8, 0x20#8, 0x30#8, 0x40#8, 0x50#8]),
      write ≠ [] ∧ write.length ≤ 4) ∧
    pullRun [some [0x77#8, 0x72#8, 5#8, 0#8, 0#8, 0#8, 0x10#8], some [0x20#8, 0x30#8, 0x40#8],
      some [0x50#8]] = .saved [0x10#8, 0x20#8, 0x30#8, 0x40#8, 0x50#8] [] := by
  obtain ⟨⟨hbytes, hwrites⟩, hpulled⟩ :=
    @file_round_trip [0x10#8, 0x20#8, 0x30#8, 0x40#8, 0x50#8] (by decide) 4 (by decide)
  refine ⟨hbytes, hwrites, ?_⟩
  exact hpulled [0x77#8, 0x72#8, 5#8, 0#8, 0#8, 0#8, 0x10#8] [[0x20#8, 0x30#8, 0x40#8], [0x50#8]]
    (by decide) (by decide) (by decide)

end MouseConnect

end MyMouse
