import Mathlib.Data.List.Basic
import Mathlib.Data.List.Infix
import Mathlib.Data.List.TakeDrop

namespace Rotation

variable {α : Type}

/-- How many segments a log may have and how long they may grow. -/
structure Limits where
  segments : Nat
  size : Nat
  pos : 0 < segments

/-- The segments no longer written to, the oldest first, and the one being written. -/
structure RotatingLog (α : Type) where
  older : List (List α)
  current : Option (List α)

inductive Action (α : Type)
  | write (record : List α)
  | restart

/-- What has been written, in order. -/
def written : List (Action α) → List α
  | [] => []
  | .write record :: actions => record ++ written actions
  | .restart :: actions => written actions

theorem written_append (actions actions' : List (Action α)) :
    written (actions ++ actions') = written actions ++ written actions' := by
  induction actions with
  | nil => rfl
  | cons action actions ih =>
    cases action with
    | write record => simp only [List.cons_append, written, ih, List.append_assoc]
    | restart => simpa only [List.cons_append, written] using ih

namespace RotatingLog

def empty : RotatingLog α := ⟨[], none⟩

def segments (log : RotatingLog α) : List (List α) := log.older ++ log.current.toList

def contents (log : RotatingLog α) : List α := log.segments.flatten

/-- As many of the latest segments as leave room for another one. -/
def makeRoom (limits : Limits) (segments : List (List α)) : List (List α) :=
  segments.drop (segments.length + 1 - limits.segments)

/-- The record goes to the end of the segment, or begins one of its own where it has no room. -/
def appendTo (limits : Limits) (record : List α) (older : List (List α)) (segment : List α) :
    RotatingLog α :=
  if segment.length + record.length ≤ limits.size then ⟨older, some (segment ++ record)⟩
  else ⟨makeRoom limits (older ++ [segment]), some record⟩

def write (limits : Limits) (record : List α) (log : RotatingLog α) : RotatingLog α :=
  match log.current with
  | some segment => appendTo limits record log.older segment
  | none => appendTo limits record (makeRoom limits log.older) []

/-- The writer has lost track of the segment it was writing. -/
def restart (log : RotatingLog α) : RotatingLog α := ⟨log.segments, none⟩

def act (limits : Limits) (log : RotatingLog α) : Action α → RotatingLog α
  | .write record => log.write limits record
  | .restart => log.restart

variable {limits : Limits} {log : RotatingLog α} {record : List α} {actions : List (Action α)}
  {m : Nat} {all : List α}

@[simp] theorem segments_restart : log.restart.segments = log.segments := by
  simp [restart, segments]

@[simp] theorem contents_restart : log.restart.contents = log.contents := by
  simp [contents]

theorem segments_full (older : List (List α)) (segment : List α) :
    segments ⟨older, some segment⟩ = older ++ [segment] := rfl

theorem contents_full (older : List (List α)) (segment : List α) :
    contents ⟨older, some segment⟩ = older.flatten ++ segment := by
  simp [contents, segments]

theorem makeRoom_length (limits : Limits) (segments : List (List α)) :
    (makeRoom limits segments).length = min segments.length (limits.segments - 1) := by
  have := limits.pos
  rw [makeRoom, List.length_drop]
  omega

theorem makeRoom_suffix (limits : Limits) (segments : List (List α)) :
    makeRoom limits segments <:+ segments := List.drop_suffix _ _

theorem flatten_suffix {xs ys : List (List α)} (h : xs <:+ ys) : xs.flatten <:+ ys.flatten := by
  obtain ⟨front, rfl⟩ := h
  exact ⟨front.flatten, by rw [List.flatten_append]⟩

theorem appendTo_cases (limits : Limits) (record : List α) (older : List (List α))
    (segment : List α) :
    (segment.length + record.length ≤ limits.size ∧
      appendTo limits record older segment = ⟨older, some (segment ++ record)⟩) ∨
    (limits.size < segment.length + record.length ∧
      appendTo limits record older segment =
        ⟨makeRoom limits (older ++ [segment]), some record⟩) := by
  unfold appendTo
  by_cases hfits : segment.length + record.length ≤ limits.size
  · exact Or.inl ⟨hfits, if_pos hfits⟩
  · exact Or.inr ⟨by omega, if_neg hfits⟩

theorem appendTo_suffix (limits : Limits) (record : List α) (older : List (List α))
    (segment : List α) :
    (appendTo limits record older segment).contents <:+ older.flatten ++ segment ++ record := by
  rcases appendTo_cases limits record older segment with ⟨_, hwrite⟩ | ⟨_, hwrite⟩
  · rw [hwrite, contents_full, List.append_assoc]
  · rw [hwrite, contents_full]
    obtain ⟨front, hfront⟩ := flatten_suffix (makeRoom_suffix limits (older ++ [segment]))
    refine ⟨front, ?_⟩
    rw [← List.append_assoc, hfront, List.flatten_append]
    simp

theorem write_suffix (limits : Limits) (record : List α) (log : RotatingLog α) :
    (log.write limits record).contents <:+ log.contents ++ record := by
  unfold write
  split
  next segment hcurrent =>
    have := appendTo_suffix limits record log.older segment
    simpa [contents, segments, hcurrent] using this
  next hcurrent =>
    obtain ⟨front, hfront⟩ := flatten_suffix (makeRoom_suffix limits log.older)
    apply (appendTo_suffix limits record _ []).trans
    refine ⟨front, ?_⟩
    rw [List.append_nil, ← List.append_assoc, hfront]
    simp [contents, segments, hcurrent]

/-- However often it is restarted, the log holds the end of what has been written. -/
theorem contents_suffix (limits : Limits) (log : RotatingLog α) (actions : List (Action α)) :
    (actions.foldl (act limits) log).contents <:+ log.contents ++ written actions := by
  induction actions generalizing log with
  | nil => simp [written]
  | cons action actions ih =>
    rw [List.foldl_cons]
    have hrest := ih (log.act limits action)
    cases action with
    | write record =>
      obtain ⟨front, hfront⟩ := write_suffix limits record log
      apply hrest.trans
      refine ⟨front, ?_⟩
      rw [← List.append_assoc, act, hfront, written, List.append_assoc]
    | restart => simpa [act, written] using hrest

/-- The log holds the end of `all`, every finished segment had no room for another record of
length `m`, and nothing is missing unless it has all its segments. -/
structure Retains (limits : Limits) (m : Nat) (all : List α) (log : RotatingLog α) : Prop where
  suffix : log.contents <:+ all
  full : ∀ segment ∈ log.older, limits.size < segment.length + m
  kept : log.contents = all ∨ log.older.length + 1 = limits.segments
  begun : log.current = none → all = []

theorem retains_empty (limits : Limits) (m : Nat) : Retains limits m ([] : List α) empty := by
  refine ⟨by simp [contents, segments, empty], by simp [empty], Or.inl ?_, fun _ => rfl⟩
  simp [contents, segments, empty]

theorem Retains.appendTo {older : List (List α)} {segment : List α}
    (h : Retains limits m all ⟨older, some segment⟩) (hm : record.length ≤ m) :
    Retains limits m (all ++ record) (appendTo limits record older segment) := by
  have hpos := limits.pos
  have hcontents := contents_full older segment
  have hsuffix : (RotatingLog.appendTo limits record older segment).contents <:+ all ++ record := by
    obtain ⟨front, hfront⟩ := h.suffix
    apply (appendTo_suffix limits record older segment).trans
    refine ⟨front, ?_⟩
    rw [← List.append_assoc, ← hcontents, hfront]
  rcases appendTo_cases limits record older segment with ⟨_, hwrite⟩ | ⟨hover, hwrite⟩
  · rw [hwrite] at hsuffix ⊢
    refine ⟨hsuffix, h.full, ?_, fun hnone => by cases hnone⟩
    rcases h.kept with hall | hlength
    · left
      rw [contents_full, ← hall, hcontents, List.append_assoc]
    · exact Or.inr hlength
  · rw [hwrite] at hsuffix ⊢
    refine ⟨hsuffix, ?_, ?_, fun hnone => by cases hnone⟩
    · intro s hs
      have hmem := (makeRoom_suffix limits (older ++ [segment])).subset hs
      rcases List.mem_append.mp hmem with hold | hlast
      · exact h.full s hold
      · rw [List.mem_singleton.mp hlast]
        omega
    · have hlength := makeRoom_length limits (older ++ [segment])
      rw [List.length_append, List.length_singleton] at hlength
      by_cases hroom : older.length + 1 < limits.segments
      · left
        have hall : makeRoom limits (older ++ [segment]) = older ++ [segment] := by
          rw [makeRoom, List.length_append, List.length_singleton,
            show older.length + 1 + 1 - limits.segments = 0 by omega]
          rfl
        have hkept : contents ⟨older, some segment⟩ = all := by
          rcases h.kept with hkept | hcount
          · exact hkept
          · change older.length + 1 = limits.segments at hcount
            omega
        rw [hall, contents_full, List.flatten_append, ← hkept, hcontents]
        simp
      · right
        change (makeRoom limits (older ++ [segment])).length + 1 = limits.segments
        omega

theorem Retains.write (h : Retains limits m all log) (hm : record.length ≤ m) :
    Retains limits m (all ++ record) (log.write limits record) := by
  unfold RotatingLog.write
  split
  next segment hcurrent =>
    have hlog : log = ⟨log.older, some segment⟩ := by rw [← hcurrent]
    rw [hlog] at h
    exact h.appendTo hm
  next hcurrent =>
    -- nothing has been written
    have hnil := h.begun hcurrent
    have hempty : log.contents = [] := List.suffix_nil.mp (hnil ▸ h.suffix)
    have hold : log.older.flatten = [] := by
      simpa [contents, segments, hcurrent] using hempty
    have hroom : (makeRoom limits log.older).flatten = [] := by
      have hsuffix := flatten_suffix (makeRoom_suffix limits log.older)
      rw [hold] at hsuffix
      exact List.suffix_nil.mp hsuffix
    refine Retains.appendTo ⟨?_, ?_, Or.inl ?_, fun hnone => by cases hnone⟩ hm
    · rw [contents_full, hroom]
      exact List.nil_suffix
    · intro s hs
      exact h.full s ((makeRoom_suffix limits log.older).subset hs)
    · rw [contents_full, hroom, hnil]
      rfl

theorem flatten_length_ge {n : Nat} {segments : List (List α)}
    (h : ∀ segment ∈ segments, n ≤ segment.length) :
    segments.length * n ≤ segments.flatten.length := by
  induction segments with
  | nil => simp
  | cons segment segments ih =>
    have hfirst := h segment List.mem_cons_self
    have hrest := ih fun s hs => h s (List.mem_cons_of_mem segment hs)
    rw [List.length_cons, Nat.succ_mul, List.flatten_cons, List.length_append]
    omega

/-- A log that has lost something still holds this much. -/
theorem Retains.length (h : Retains limits m all log) :
    min all.length ((limits.segments - 1) * (limits.size + 1 - m)) ≤ log.contents.length := by
  rcases h.kept with hall | hcount
  · rw [hall]
    exact Nat.min_le_left _ _
  · have hold : log.older.length * (limits.size + 1 - m) ≤ log.older.flatten.length := by
      apply flatten_length_ge
      intro segment hmem
      have := h.full segment hmem
      omega
    have hall : log.older.flatten.length ≤ log.contents.length := by
      simp only [contents, segments, List.flatten_append, List.length_append]
      omega
    rw [show log.older.length = limits.segments - 1 by omega] at hold
    exact (Nat.min_le_right _ _).trans (hold.trans hall)

end RotatingLog

end Rotation
