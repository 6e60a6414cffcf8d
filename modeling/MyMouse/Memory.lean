import Mathlib.Data.List.Basic
import Mathlib.Data.List.GetD
import Mathlib.Data.List.TakeDrop
import Mathlib.Logic.Function.Basic

namespace Memory

variable {α β : Type}

/-- A memory with a block written at an address. -/
def write (m : Nat → α) (addr : Nat) (block : List α) : Nat → α :=
  fun a => if addr ≤ a then block.getD (a - addr) (m a) else m a

variable {m : Nat → α} {addr a n : Nat} {block xs ys : List α}

theorem write_of_lt (h : a < addr) : write m addr block a = m a := by
  unfold write
  rw [if_neg (by omega)]

theorem write_of_ge (h : addr + block.length ≤ a) : write m addr block a = m a := by
  unfold write
  split
  next => rw [List.getD_eq_default _ _ (by omega)]
  next => rfl

theorem write_getElem (hlo : addr ≤ a) (hhi : a - addr < block.length) :
    write m addr block a = block[a - addr] := by
  unfold write
  rw [if_pos hlo, List.getD_eq_getElem _ _ hhi]

@[simp] theorem write_nil : write m addr [] = m := by
  funext a
  simp [write]

theorem write_append : write m addr (xs ++ ys) = write (write m addr xs) (addr + xs.length) ys := by
  funext a
  have hlen : (xs ++ ys).length = xs.length + ys.length := List.length_append
  by_cases hlo : a < addr
  · rw [write_of_lt hlo, write_of_lt (by omega), write_of_lt hlo]
  by_cases hmid : a < addr + xs.length
  · rw [write_of_lt hmid, write_getElem (by omega) (by omega),
      write_getElem (by omega) (by omega), List.getElem_append_left]
  by_cases hhi : a < addr + (xs ++ ys).length
  · rw [write_getElem (by omega) (by omega), write_getElem (by omega) (by omega),
      List.getElem_append_right (by omega)]
    congr 1
    omega
  · rw [write_of_ge (by omega), write_of_ge (by omega), write_of_ge (by omega)]

theorem write_cons {x : α} :
    write m addr (x :: xs) = write (Function.update m addr x) (addr + 1) xs := by
  have hsingle : write m addr [x] = Function.update m addr x := by
    funext a
    rcases Nat.lt_trichotomy a addr with hlt | rfl | hgt
    · rw [write_of_lt hlt, Function.update_of_ne (by omega)]
    · rw [write_getElem (Nat.le_refl a) (by simp), Function.update_self]
      simp
    · rw [write_of_ge (by simp only [List.length_singleton]; omega),
        Function.update_of_ne (by omega)]
  rw [show x :: xs = [x] ++ xs from rfl, write_append, hsingle]
  rfl

theorem write_overwrite (h : xs.length = ys.length) :
    write (write m addr xs) addr ys = write m addr ys := by
  funext a
  by_cases hlo : a < addr
  · rw [write_of_lt hlo, write_of_lt hlo, write_of_lt hlo]
  by_cases hhi : a < addr + ys.length
  · rw [write_getElem (by omega) (by omega), write_getElem (by omega) (by omega)]
  · rw [write_of_ge (by omega), write_of_ge (by omega), write_of_ge (by omega)]

theorem map_range_write (m : Nat → α) (xs : List α) :
    (List.range xs.length).map (write m 0 xs) = xs := by
  apply List.ext_getElem (by simp)
  intro i _ hi
  rw [List.getElem_map, List.getElem_range, write_getElem (Nat.zero_le i) hi]
  rfl

theorem map_range_update {x : α} :
    (List.range n).map (Function.update m a x) = (List.range n).map m ↔ (a < n → x = m a) := by
  rw [List.map_inj_left]
  constructor
  · intro hsame ha
    have hat := hsame a (List.mem_range.mpr ha)
    rwa [Function.update_self] at hat
  · intro hat i hi
    by_cases heq : i = a
    · subst heq
      rw [Function.update_self]
      exact hat (List.mem_range.mp hi)
    · rw [Function.update_of_ne heq]

/-- The consecutive blocks of length `n` of a list, the last one maybe shorter. -/
def chunksFuel : Nat → Nat → List α → List (List α)
  | 0, _, _ => []
  | _ + 1, _, [] => []
  | fuel + 1, n, x :: xs => (x :: xs).take n :: chunksFuel fuel n ((x :: xs).drop n)

def chunks (n : Nat) (xs : List α) : List (List α) := chunksFuel xs.length n xs

theorem chunksFuel_congr {fuel fuel' : Nat} (hn : 0 < n) (hfuel : xs.length ≤ fuel)
    (hfuel' : xs.length ≤ fuel') : chunksFuel fuel n xs = chunksFuel fuel' n xs := by
  induction fuel generalizing fuel' xs with
  | zero =>
    have hxs : xs = [] := List.length_eq_zero_iff.mp (by omega)
    subst hxs
    cases fuel' <;> rfl
  | succ fuel ih =>
    cases xs with
    | nil => cases fuel' <;> rfl
    | cons x xs =>
      cases fuel' with
      | zero => simp at hfuel'
      | succ fuel' =>
        have hdrop : ((x :: xs).drop n).length ≤ xs.length := by
          simp only [List.length_drop, List.length_cons]
          omega
        simp only [List.length_cons] at hfuel hfuel'
        simp only [chunksFuel]
        exact congrArg _ (ih (by omega) (by omega))

@[simp] theorem chunks_nil : chunks n ([] : List α) = [] := rfl

theorem chunks_of_ne_nil (hn : 0 < n) (hxs : xs ≠ []) :
    chunks n xs = xs.take n :: chunks n (xs.drop n) := by
  cases xs with
  | nil => exact absurd rfl hxs
  | cons x xs =>
    have hdrop : ((x :: xs).drop n).length ≤ xs.length := by
      simp only [List.length_drop, List.length_cons]
      omega
    simp only [chunks, List.length_cons, chunksFuel]
    rw [chunksFuel_congr hn hdrop (Nat.le_refl _)]

theorem mem_chunks {c : List α} (hn : 0 < n) (h : c ∈ chunks n xs) : c ≠ [] ∧ c.length ≤ n := by
  induction hlen : xs.length using Nat.strongRecOn generalizing xs with
  | _ len ih =>
    by_cases hxs : xs = []
    · simp [hxs] at h
    · rw [chunks_of_ne_nil hn hxs] at h
      have hpos := List.length_pos_of_ne_nil hxs
      rcases List.mem_cons.mp h with rfl | hrest
      · refine ⟨?_, List.length_take_le n xs⟩
        apply List.ne_nil_of_length_pos
        rw [List.length_take]
        omega
      · exact ih (xs.drop n).length (by rw [List.length_drop]; omega) hrest rfl

theorem length_chunks_le (hn : 0 < n) (xs : List α) : (chunks n xs).length * n < xs.length + n := by
  induction hlen : xs.length using Nat.strongRecOn generalizing xs with
  | _ len ih =>
    by_cases hxs : xs = []
    · subst hxs
      simp only [chunks_nil, List.length_nil]
      omega
    · have hpos := List.length_pos_of_ne_nil hxs
      have := ih (xs.drop n).length (by rw [List.length_drop]; omega) (xs.drop n) rfl
      rw [chunks_of_ne_nil hn hxs, List.length_cons, Nat.succ_mul]
      by_cases hshort : xs.length ≤ n
      · rw [List.drop_of_length_le hshort]
        simp
        omega
      · rw [List.length_drop] at this
        omega

theorem length_le_chunks (hn : 0 < n) (xs : List α) : xs.length ≤ (chunks n xs).length * n := by
  induction hlen : xs.length using Nat.strongRecOn generalizing xs with
  | _ len ih =>
    by_cases hxs : xs = []
    · subst hxs
      simp only [List.length_nil] at hlen
      omega
    · have hpos := List.length_pos_of_ne_nil hxs
      have hdrop : (xs.drop n).length = xs.length - n := List.length_drop
      have hrest := ih (xs.drop n).length (by omega) (xs.drop n) rfl
      rw [chunks_of_ne_nil hn hxs, List.length_cons, Nat.succ_mul]
      omega

theorem chunks_flatten (hn : 0 < n) (xs : List α) : (chunks n xs).flatten = xs := by
  induction hlen : xs.length using Nat.strongRecOn generalizing xs with
  | _ len ih =>
    by_cases hxs : xs = []
    · simp [hxs]
    · have hpos := List.length_pos_of_ne_nil hxs
      have hrest := ih (xs.drop n).length (by rw [List.length_drop]; omega) (xs.drop n) rfl
      rw [chunks_of_ne_nil hn hxs, List.flatten_cons, hrest, List.take_append_drop]

theorem chunks_even {c : List α} (hn : 0 < n) (heven : n % 2 = 0) (hxs : xs.length % 2 = 0)
    (h : c ∈ chunks n xs) : c.length % 2 = 0 := by
  induction hlen : xs.length using Nat.strongRecOn generalizing xs with
  | _ len ih =>
    by_cases hnil : xs = []
    · simp [hnil] at h
    · have hpos := List.length_pos_of_ne_nil hnil
      rw [chunks_of_ne_nil hn hnil] at h
      rcases List.mem_cons.mp h with rfl | hrest
      · rw [List.length_take]
        omega
      · have hdrop : (xs.drop n).length = xs.length - n := List.length_drop
        exact ih (xs.drop n).length (by omega) (by omega) hrest rfl

end Memory
