import MyMouse.Memory
import Mathlib.Order.Nat

namespace CStrings

open Memory

/-- The character that ends a string. -/
def nul : Char := '\x00'

/-- A string as C has it. -/
abbrev CString := { chars : List Char // nul ∉ chars }

/-- The characters from the start of an array on. -/
abbrev CharBuffer := Nat → Char

/-- An assignment to an element of an array; outside the array it has no result. -/
def storeChar (size : Nat) (buffer : CharBuffer) (i : Nat) (c : Char) : Option CharBuffer :=
  if i < size then some (Function.update buffer i c) else none

/-- `strncpy` to the index `dst` of an array: exactly `len` characters are written. -/
def strncpy (size : Nat) (buffer : CharBuffer) (dst : Nat) (src : List Char) (len : Nat) :
    Option CharBuffer :=
  if dst + len ≤ size then
    some (write buffer dst ((src ++ List.replicate len nul).take len))
  else none

/-- The string an array holds, unless its end is not in the array. -/
def stringAt (size : Nat) (buffer : CharBuffer) : Option (List Char) :=
  let chars := (List.range size).map buffer
  if nul ∈ chars then some (chars.takeWhile (· ≠ nul)) else none

/-- The array holds this string. -/
structure Holds (size : Nat) (buffer : CharBuffer) (string : List Char) : Prop where
  fits : string.length < size
  noNul : nul ∉ string
  chars : ∀ i ≤ string.length, buffer i = string.getD i nul

variable {size dst len i : Nat} {buffer : CharBuffer} {string src : List Char}

theorem getD_take {α : Type} (l : List α) (n i : Nat) (default : α) :
    (l.take n).getD i default = if i < n then l.getD i default else default := by
  simp only [List.getD_eq_getElem?_getD, List.getElem?_take]
  split <;> rfl

theorem padded_getD : (src ++ List.replicate len nul).getD i nul = src.getD i nul := by
  by_cases h : i < src.length
  · exact List.getD_append _ _ _ _ h
  · rw [List.getD_append_right _ _ _ _ (by omega), List.getD_eq_default src _ (by omega),
      List.getD_eq_getElem?_getD, List.getElem?_replicate]
    split <;> rfl

/-- The characters after a `strncpy`. -/
theorem strncpy_spec (buffer : CharBuffer) (src : List Char) (h : dst + len ≤ size) :
    ∃ copied, strncpy size buffer dst src len = some copied ∧ ∀ i, copied i =
      if dst ≤ i ∧ i < dst + len then src.getD (i - dst) nul else buffer i := by
  refine ⟨_, if_pos h, ?_⟩
  intro i
  have hlength : ((src ++ List.replicate len nul).take len).length = len := by
    rw [List.length_take, List.length_append, List.length_replicate]
    omega
  by_cases hlow : i < dst
  · rw [write_of_lt hlow, if_neg (by omega)]
  by_cases hhigh : i < dst + len
  · rw [write_getElem (by omega) (by omega), if_pos ⟨by omega, hhigh⟩, ← List.getD_eq_getElem _ nul,
      getD_take, if_pos (by omega), padded_getD]
  · rw [write_of_ge (by omega), if_neg (by omega)]

theorem storeChar_spec (buffer : CharBuffer) (c : Char) (h : i < size) :
    ∃ stored, storeChar size buffer i c = some stored ∧ ∀ j, stored j =
      if j = i then c else buffer j := by
  refine ⟨_, if_pos h, ?_⟩
  intro j
  exact Function.update_apply buffer i c j

theorem Holds.char_ne_nul (h : Holds size buffer string) (hi : i < string.length) :
    buffer i ≠ nul := by
  rw [h.chars i hi.le, List.getD_eq_getElem _ _ hi]
  intro heq
  exact h.noNul (heq ▸ List.getElem_mem hi)

theorem Holds.end_nul (h : Holds size buffer string) : buffer string.length = nul := by
  rw [h.chars _ le_rfl, List.getD_eq_default _ _ le_rfl]

theorem takeWhile_range {α : Type} {p : α → Bool} {f : Nat → α} {k : Nat} (hk : k ≤ size)
    (hbefore : ∀ i < k, p (f i) = true) (hend : k < size → p (f k) = false) :
    ((List.range size).map f).takeWhile p = (List.range k).map f := by
  obtain ⟨rest, rfl⟩ := Nat.exists_eq_add_of_le hk
  rw [List.range_add, List.map_append, List.takeWhile_append_of_pos]
  · cases rest with
    | zero => simp
    | succ rest =>
      rw [List.range_succ_eq_map, List.map_cons, List.map_cons, List.takeWhile_cons_of_neg]
      · exact List.append_nil _
      · rw [Nat.add_zero, hend (by omega)]
        exact Bool.false_ne_true
  · intro a ha
    obtain ⟨i, hi, rfl⟩ := List.mem_map.mp ha
    exact hbefore i (List.mem_range.mp hi)

theorem Holds.map_range (h : Holds size buffer string) :
    (List.range string.length).map buffer = string := by
  apply List.ext_getElem (by simp)
  intro i _ hi
  rw [List.getElem_map, List.getElem_range, h.chars i hi.le, List.getD_eq_getElem _ _ hi]

theorem Holds.takeWhile (h : Holds size buffer string) :
    ((List.range size).map buffer).takeWhile (· ≠ nul) = string := by
  rw [takeWhile_range h.fits.le, h.map_range]
  · intro i hi
    exact decide_eq_true (h.char_ne_nul hi)
  · intro _
    rw [h.end_nul]
    decide

/-- An array that holds a string has it read back. -/
theorem Holds.stringAt (h : Holds size buffer string) : stringAt size buffer = some string := by
  have hmem : nul ∈ (List.range size).map buffer :=
    List.mem_map.mpr ⟨string.length, List.mem_range.mpr h.fits, h.end_nul⟩
  unfold CStrings.stringAt
  dsimp only
  rw [if_pos hmem, h.takeWhile]

end CStrings
