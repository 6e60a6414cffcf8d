import MyMouse.Buttons
import Mathlib.Data.List.Nodup
import Mathlib.Data.List.Perm.Subperm
import Mathlib.Order.Lattice
import Mathlib.Order.Nat

namespace MyMouse

/-- The comparison loop finds an element that no other is below. -/
theorem foldl_least {α : Type} [LinearOrder α] (start : α) (rest : List α) :
    rest.foldl (fun min p => if p < min then p else min) start ∈ start :: rest ∧
    ∀ p ∈ start :: rest, rest.foldl (fun min p => if p < min then p else min) start ≤ p := by
  induction rest generalizing start with
  | nil => simp
  | cons next rest ih =>
    rw [List.foldl_cons]
    by_cases lt : next < start
    · rw [if_pos lt]
      obtain ⟨mem, least⟩ := ih next
      refine ⟨List.mem_cons_of_mem start mem, ?_⟩
      intro p hp
      rcases List.mem_cons.mp hp with rfl | hp
      · exact (least next List.mem_cons_self).trans lt.le
      · exact least p hp
    · rw [if_neg lt]
      obtain ⟨mem, least⟩ := ih start
      refine ⟨?_, ?_⟩
      · rcases List.mem_cons.mp mem with hstart | hrest
        · rw [hstart]
          exact List.mem_cons_self
        · exact List.mem_cons_of_mem _ (List.mem_cons_of_mem _ hrest)
      · intro p hp
        rcases List.mem_cons.mp hp with rfl | hp
        · exact least p List.mem_cons_self
        · rcases List.mem_cons.mp hp with rfl | hp
          · exact (least start List.mem_cons_self).trans (not_lt.mp lt)
          · exact least p (List.mem_cons_of_mem _ hp)

theorem foldl_greatest (start : Nat) (rest : List Nat) :
    rest.foldl (fun max p => if p > max then p else max) start ∈ start :: rest ∧
    ∀ p ∈ start :: rest, p ≤ rest.foldl (fun max p => if p > max then p else max) start :=
  @foldl_least (OrderDual Nat) _ start rest

def minPin (pins : List Nat) : Nat :=
  pins.foldl (fun min p => if p < min then p else min) (pins.headD 0)

def maxPin (pins : List Nat) : Nat :=
  pins.foldl (fun max p => if p > max then p else max) (pins.headD 0)

theorem queueForPin_eq (pins : List Nat) (pin : Nat) :
    queueForPin pins pin =
      if maxPin pins - minPin pins = pins.length - 1 then
        if minPin pins ≤ pin ∧ pin ≤ maxPin pins then some (pin - minPin pins) else none
      else pins.findIdx? (pin == ·) := rfl

variable {pins : List Nat}

theorem minPin_le {pin : Nat} (mem : pin ∈ pins) : minPin pins ≤ pin :=
  (foldl_least (pins.headD 0) pins).2 pin (List.mem_cons_of_mem _ mem)

theorem le_maxPin {pin : Nat} (mem : pin ∈ pins) : pin ≤ maxPin pins :=
  (foldl_greatest (pins.headD 0) pins).2 pin (List.mem_cons_of_mem _ mem)

/-- As many distinct pins as the range from the least to the greatest has numbers fill it. -/
theorem contiguous_perm (hne : pins ≠ []) (distinct : pins.Nodup)
    (contiguous : maxPin pins - minPin pins = pins.length - 1) :
    (List.range' (minPin pins) pins.length).Perm pins := by
  have hlength : 0 < pins.length := List.length_pos_iff.mpr hne
  have within : pins ⊆ List.range' (minPin pins) pins.length := by
    intro pin mem
    have hmin := minPin_le mem
    have hmax := le_maxPin mem
    rw [List.mem_range'_1]
    omega
  have subperm := distinct.subperm within
  exact (subperm.perm_of_length_le (by simp)).symm

theorem minPin_le_maxPin (hne : pins ≠ []) : minPin pins ≤ maxPin pins := by
  obtain ⟨pin, mem⟩ := List.exists_mem_of_ne_nil pins hne
  exact (minPin_le mem).trans (le_maxPin mem)

theorem queueForPin_contiguous (hne : pins ≠ [])
    (contiguous : maxPin pins - minPin pins = pins.length - 1) (pin i : Nat) :
    queueForPin pins pin = some i ↔
      (List.range' (minPin pins) pins.length)[i]? = some pin := by
  have hlength : 0 < pins.length := List.length_pos_iff.mpr hne
  have hle := minPin_le_maxPin hne
  rw [queueForPin_eq, if_pos contiguous, List.getElem?_eq_some_iff]
  simp only [List.length_range', List.getElem_range', Nat.one_mul]
  constructor
  · intro h
    split at h
    next range =>
      have hi := Option.some.inj h
      exact ⟨by omega, by omega⟩
    next => simp at h
  · rintro ⟨hi, hpin⟩
    rw [if_pos ⟨by omega, by omega⟩]
    congr 1
    omega

theorem queueForPin_search (distinct : pins.Nodup)
    (scattered : maxPin pins - minPin pins ≠ pins.length - 1) (pin i : Nat) :
    queueForPin pins pin = some i ↔ pins[i]? = some pin := by
  rw [queueForPin_eq, if_neg scattered, List.findIdx?_eq_some_iff_getElem,
    List.getElem?_eq_some_iff]
  constructor
  · rintro ⟨hi, found, _⟩
    exact ⟨hi, (beq_iff_eq.mp found).symm⟩
  · rintro ⟨hi, hpin⟩
    refine ⟨hi, beq_iff_eq.mpr hpin.symm, ?_⟩
    intro j hj found
    have hsame : pins[j] = pins[i] := (beq_iff_eq.mp found).symm.trans hpin.symm
    have := (List.Nodup.getElem_inj_iff distinct).mp hsame
    omega

/-- On both branches the queues are those of the pins in some order. -/
theorem queueForPin_order (hne : pins ≠ []) (distinct : pins.Nodup) :
    ∃ order : List Nat, order.Perm pins ∧
      ∀ pin i, queueForPin pins pin = some i ↔ order[i]? = some pin := by
  by_cases contiguous : maxPin pins - minPin pins = pins.length - 1
  · exact ⟨_, contiguous_perm hne distinct contiguous, queueForPin_contiguous hne contiguous⟩
  · exact ⟨pins, List.Perm.refl pins, queueForPin_search distinct contiguous⟩

theorem exists_queueForPin_iff (hne : pins ≠ []) (distinct : pins.Nodup) {pin : Nat} :
    (∃ i, queueForPin pins pin = some i) ↔ pin ∈ pins := by
  obtain ⟨order, perm, horder⟩ := queueForPin_order hne distinct
  rw [← perm.mem_iff, List.mem_iff_getElem?]
  exact exists_congr (horder pin)

theorem queueForPin_eq_none_iff (hne : pins ≠ []) (distinct : pins.Nodup) {pin : Nat} :
    queueForPin pins pin = none ↔ pin ∉ pins := by
  rw [← exists_queueForPin_iff hne distinct, Option.eq_none_iff_forall_ne_some, not_exists]

theorem queueForPin_injective (hne : pins ≠ []) (distinct : pins.Nodup) {pin other i : Nat}
    (h : queueForPin pins pin = some i) (h' : queueForPin pins other = some i) : pin = other := by
  obtain ⟨order, _, horder⟩ := queueForPin_order hne distinct
  have hpin := (horder pin i).mp h
  have hother := (horder other i).mp h'
  exact Option.some.inj (hpin.symm.trans hother)

/-- The pins of the array and the queues are in bijection. -/
theorem queueForPin_bijective (hne : pins ≠ []) (distinct : pins.Nodup) :
    (∀ pin, queueForPin pins pin = none ↔ pin ∉ pins) ∧
    (∀ pin i, queueForPin pins pin = some i → i < pins.length) ∧
    (∀ pin ∈ pins, ∀ other ∈ pins, pin ≠ other →
      queueForPin pins pin ≠ queueForPin pins other) ∧
    ∀ i < pins.length, ∃ pin ∈ pins, queueForPin pins pin = some i := by
  obtain ⟨order, perm, horder⟩ := queueForPin_order hne distinct
  refine ⟨fun _ => queueForPin_eq_none_iff hne distinct, ?_, ?_, ?_⟩
  · intro pin i h
    obtain ⟨hi, _⟩ := List.getElem?_eq_some_iff.mp ((horder pin i).mp h)
    rw [← perm.length_eq]
    exact hi
  · intro pin mem other _ apart same
    obtain ⟨i, hi⟩ := (exists_queueForPin_iff hne distinct).mpr mem
    have hother : queueForPin pins other = some i := same ▸ hi
    exact apart (queueForPin_injective hne distinct hi hother)
  · intro i hi
    rw [← perm.length_eq] at hi
    have hqueue := (horder order[i] i).mpr (List.getElem?_eq_getElem hi)
    exact ⟨order[i], (exists_queueForPin_iff hne distinct).mp ⟨i, hqueue⟩, hqueue⟩

theorem queueForPin_bijective_buttons :
    (∀ pin, queueForPin buttonPins pin = none ↔ pin ∉ buttonPins) ∧
    ∀ pin, queueForPin [6, 4, 5] pin = none ↔ pin ∉ [6, 4, 5] :=
  ⟨(queueForPin_bijective (by decide) (by decide)).1,
    (queueForPin_bijective (by decide) (by decide)).1⟩

theorem buttonPins_ne_nil : buttonPins ≠ [] := by decide

theorem buttonPins_nodup : buttonPins.Nodup := by decide

end MyMouse
