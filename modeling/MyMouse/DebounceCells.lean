import MyMouse.Debounce

namespace MyMouse

open BitMask

namespace Debounce

variable {υ : Type} {numShifts pin i j : Nat} {d : Debounce υ}

/-- The cell of a logical index. -/
def cell (numShifts : Nat) (d : Debounce υ) (i : Nat) : BitVec 32 :=
  d.shiftarr (d.circularIndexToPhys numShifts i)

/-- A request for `pin` travels in some cell of the array. -/
def Pending (numShifts : Nat) (d : Debounce υ) (pin : Nat) : Prop :=
  ∃ i ≤ numShifts, (d.cell numShifts i).getLsbD pin = true

instance (numShifts : Nat) (d : Debounce υ) (pin : Nat) : Decidable (Pending numShifts d pin) :=
  decidable_of_iff (∃ i < numShifts + 1, (d.cell numShifts i).getLsbD pin = true)
    (by simp only [Pending, Nat.lt_succ_iff])

/-- The timer runs while there are moves left, and no request is out of their reach. -/
structure CellsOk (numShifts : Nat) (d : Debounce υ) : Prop where
  head : d.shiftarrCell0Index ≤ numShifts
  moves_nonneg : 0 ≤ d.shiftarrMovesLeft
  moves_le : d.shiftarrMovesLeft ≤ numShifts
  timer : d.timerRunning = true ↔ 0 < d.shiftarrMovesLeft
  empty : ∀ i ≤ numShifts, i = 0 ∨ d.shiftarrMovesLeft < i → d.cell numShifts i = 0#32

theorem circularIndexToPhys_injective (hi : i ≤ numShifts) (hj : j ≤ numShifts)
    (h : d.circularIndexToPhys numShifts i = d.circularIndexToPhys numShifts j) : i = j := by
  unfold circularIndexToPhys at h
  simp only at h
  split at h
  next =>
    split at h
    next => omega
    next => omega
  next =>
    split at h
    next => omega
    next => omega

theorem cell_update (d : Debounce υ) (hi : i ≤ numShifts) (hj : j ≤ numShifts) (value : BitVec 32) :
    cell numShifts { d with
      shiftarr := Function.update d.shiftarr (d.circularIndexToPhys numShifts j) value } i =
      if i = j then value else d.cell numShifts i := by
  change Function.update d.shiftarr (d.circularIndexToPhys numShifts j) value
    (d.circularIndexToPhys numShifts i) = _
  by_cases heq : i = j
  · rw [if_pos heq, heq, Function.update_self]
  · rw [if_neg heq, Function.update_of_ne]
    · rfl
    · exact fun h => heq (circularIndexToPhys_injective hi hj h)

theorem cell_request (hi : i ≤ numShifts) :
    (d.request numShifts pin).cell numShifts i =
      if i = numShifts then writeBit (d.cell numShifts numShifts) pin true
      else d.cell numShifts i :=
  cell_update d hi (Nat.le_refl numShifts) (writeBit (d.cell numShifts numShifts) pin true)

/-- What `debounce_timer_cb` does to the array. -/
def moved (numShifts : Nat) (d : Debounce υ) : Debounce υ :=
  let d := d.rotateBuffer numShifts
  finishMove { d with shiftarr := Function.update d.shiftarr d.shiftarrCell0Index 0#32 }

theorem rotateBuffer_head (hhead : d.shiftarrCell0Index ≤ numShifts) :
    (d.rotateBuffer numShifts).shiftarrCell0Index ≤ numShifts := by
  simp only [rotateBuffer, circularIndexToPhys]
  split
  next => omega
  next => omega

theorem circularIndexToPhys_rotate (hhead : d.shiftarrCell0Index ≤ numShifts) (hi : i ≤ numShifts) :
    (d.rotateBuffer numShifts).circularIndexToPhys numShifts i =
      d.circularIndexToPhys numShifts (if i = numShifts then 0 else i + 1) := by
  simp only [rotateBuffer, circularIndexToPhys]
  by_cases hlast : i = numShifts
  · simp only [hlast, ↓reduceIte]
    split
    next =>
      split
      next => split <;> omega
      next => split <;> omega
    next =>
      split
      next => split <;> omega
      next => split <;> omega
  · simp only [hlast, ↓reduceIte]
    split
    next =>
      split
      next => split <;> omega
      next => split <;> omega
    next =>
      split
      next => split <;> omega
      next => split <;> omega

/-- A move shifts every cell by one and empties the first. -/
theorem cell_moved (hhead : d.shiftarrCell0Index ≤ numShifts) (hi : i ≤ numShifts) :
    (d.moved numShifts).cell numShifts i =
      if i = 0 then 0#32
      else if i = numShifts then d.cell numShifts 0 else d.cell numShifts (i + 1) := by
  have hrotated := rotateBuffer_head hhead
  have hzero : (d.rotateBuffer numShifts).circularIndexToPhys numShifts 0 =
      (d.rotateBuffer numShifts).shiftarrCell0Index := by
    simp only [circularIndexToPhys]
    split
    next => omega
    next => omega
  have hupdate := cell_update (d.rotateBuffer numShifts) hi (Nat.zero_le numShifts) 0#32
  rw [hzero] at hupdate
  have hcell : (d.rotateBuffer numShifts).cell numShifts i =
      d.cell numShifts (if i = numShifts then 0 else i + 1) := by
    unfold cell
    rw [circularIndexToPhys_rotate hhead hi]
    rfl
  rw [hcell] at hupdate
  have hmoved : (d.moved numShifts).cell numShifts i = _ := hupdate
  rw [hmoved]
  split
  next => rfl
  next =>
    split
    next => rfl
    next => rfl

theorem cell_withdrawFrom (hi : i ≤ numShifts) (hj : j ≤ numShifts) {other : Nat}
    (hother : other < 32) :
    ((d.withdrawFrom numShifts pin j).cell numShifts i).getLsbD other =
      ((d.cell numShifts i).getLsbD other && !decide (other = pin ∧ i = j)) := by
  have hupdate : (d.withdrawFrom numShifts pin j).cell numShifts i = _ :=
    cell_update d hi hj (writeBit (d.cell numShifts j) pin false)
  rw [hupdate]
  by_cases heq : i = j
  · subst heq
    rw [if_pos rfl, getLsbD_writeBit hother]
    by_cases hpin : other = pin
    · simp [hpin]
    · simp [hpin]
  · rw [if_neg heq]
    simp [heq]

theorem foldl_withdrawFrom (cells : List Nat) (hcells : ∀ j ∈ cells, j ≤ numShifts) :
    ∃ shiftarr, cells.foldl (withdrawFrom numShifts pin) d = { d with shiftarr := shiftarr } ∧
      ∀ i ≤ numShifts, ∀ other < 32,
        (cell numShifts { d with shiftarr := shiftarr } i).getLsbD other =
          ((d.cell numShifts i).getLsbD other && !decide (other = pin ∧ i ∈ cells)) := by
  induction cells generalizing d with
  | nil => exact ⟨d.shiftarr, rfl, fun i _ other _ => by simp⟩
  | cons first cells ih =>
    have hfirst := hcells first (by simp)
    obtain ⟨shiftarr, hfold, hbits⟩ := @ih (d.withdrawFrom numShifts pin first)
      (fun j hj => hcells j (List.mem_cons_of_mem first hj))
    refine ⟨shiftarr, hfold, ?_⟩
    intro i hi other hother
    have hrest := hbits i hi other hother
    rw [cell_withdrawFrom hi hfirst hother] at hrest
    refine hrest.trans ?_
    rw [Bool.and_assoc]
    congr 1
    by_cases hpin : other = pin
    · simp [hpin]
    · simp [hpin]

/-- Withdrawing a pin's request clears its bit in the cells with moves left. -/
theorem withdraw_spec (ok : d.CellsOk numShifts) (pin : Nat) :
    ∃ shiftarr, d.withdraw numShifts pin = { d with shiftarr := shiftarr } ∧
      ∀ i ≤ numShifts, ∀ other < 32,
        (cell numShifts { d with shiftarr := shiftarr } i).getLsbD other =
          ((d.cell numShifts i).getLsbD other && !decide (other = pin)) := by
  have hle := ok.moves_le
  have hcells : ∀ j ∈ List.range' 1 d.shiftarrMovesLeft.toNat, j ≤ numShifts := by
    intro j hj
    have := List.mem_range'_1.mp hj
    omega
  obtain ⟨shiftarr, hfold, hbits⟩ := @foldl_withdrawFrom _ _ pin d _ hcells
  refine ⟨shiftarr, hfold, ?_⟩
  intro i hi other hother
  rw [hbits i hi other hother]
  by_cases hmem : i ∈ List.range' 1 d.shiftarrMovesLeft.toNat
  · simp [hmem]
  · have hmoves : ¬ (1 ≤ i ∧ i < 1 + d.shiftarrMovesLeft.toNat) :=
      fun h => hmem (List.mem_range'_1.mpr h)
    have hempty : d.cell numShifts i = 0#32 := ok.empty i hi (by omega)
    simp [hempty]

theorem CellsOk.request (ok : d.CellsOk numShifts) (hpos : 0 < numShifts) (pin : Nat) :
    (d.request numShifts pin).CellsOk numShifts := by
  refine ⟨ok.head, Int.natCast_nonneg numShifts, Int.le_refl _,
    iff_of_true rfl (Int.natCast_pos.mpr hpos), ?_⟩
  intro i hi hcase
  have hzero : i = 0 := by
    rcases hcase with hzero | hover
    · exact hzero
    · have hmoves : (d.request numShifts pin).shiftarrMovesLeft = numShifts := rfl
      omega
  rw [cell_request hi, if_neg (by omega)]
  exact ok.empty i hi (.inl hzero)

theorem CellsOk.withdraw (ok : d.CellsOk numShifts) (pin : Nat) :
    (d.withdraw numShifts pin).CellsOk numShifts := by
  obtain ⟨shiftarr, hwithdraw, hbits⟩ := withdraw_spec ok pin
  rw [hwithdraw]
  refine ⟨ok.head, ok.moves_nonneg, ok.moves_le, ok.timer, ?_⟩
  intro i hi hcase
  apply BitVec.eq_of_getLsbD_eq
  intro other hother
  rw [hbits i hi other hother, ok.empty i hi hcase]
  simp

theorem CellsOk.moved (ok : d.CellsOk numShifts) (hrunning : d.timerRunning = true) :
    (d.moved numShifts).CellsOk numShifts := by
  have hmoves := ok.timer.mp hrunning
  have hle := ok.moves_le
  refine ⟨rotateBuffer_head ok.head, ?_, ?_, ?_, ?_⟩
  · change 0 ≤ d.shiftarrMovesLeft - 1
    omega
  · change d.shiftarrMovesLeft - 1 ≤ numShifts
    omega
  · change (if d.shiftarrMovesLeft - 1 = 0 then false else d.timerRunning) = true ↔
      0 < d.shiftarrMovesLeft - 1
    rw [hrunning]
    split
    next => exact iff_of_false Bool.false_ne_true (by omega)
    next => exact iff_of_true rfl (by omega)
  · intro i hi hcase
    rw [cell_moved ok.head hi]
    split
    next => rfl
    next hzero =>
      split
      next => exact ok.empty 0 (Nat.zero_le numShifts) (.inl rfl)
      next hlast =>
        have hover : d.shiftarrMovesLeft - 1 < i := hcase.resolve_left hzero
        exact ok.empty (i + 1) (by omega) (.inr (by omega))

theorem cellsOk_reset : (Debounce.reset : Debounce υ).CellsOk numShifts :=
  ⟨Nat.zero_le numShifts, Int.le_refl 0, Int.natCast_nonneg numShifts,
    iff_of_false Bool.false_ne_true (Int.lt_irrefl 0), fun _ _ _ => rfl⟩

end Debounce

end MyMouse
