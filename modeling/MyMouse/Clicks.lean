import MyMouse.ToggleQueue
import Mathlib.Data.List.Destutter

namespace MyMouse

/-- The number of events in the queue, as long as there are fewer than 2^32. -/
def ToggleQueue.pending (queue : ToggleQueue) : Nat := (queue.head - queue.tail).toNat

def withoutRepeats (signal : List Bool) : List Bool := signal.destutter (· ≠ ·)

theorem toggleQueueLen_eq_zero {queue : ToggleQueue} :
    toggleQueueLen queue = 0 ↔ queue.tail = queue.head := by
  unfold toggleQueueLen
  constructor
  · intro h
    have hzero : queue.tail - queue.head = 0#32 := by
      apply BitVec.eq_of_toInt_eq
      rw [h]
      rfl
    rw [← BitVec.sub_add_cancel queue.tail queue.head, hzero, BitVec.zero_add]
  · intro h
    simp [h]

theorem toggleQueueGetOrLast_tail (queue : ToggleQueue) :
    (toggleQueueGetOrLast queue).2.tail = queue.tail ∨
    (toggleQueueGetOrLast queue).2.tail = queue.tail + 1#32 := by
  unfold toggleQueueGetOrLast
  by_cases h : queue.tail ≠ queue.head
  · exact Or.inr (by simp [h])
  · exact Or.inl (by simp [h])

theorem withoutRepeats_cons_same (value : Bool) (signal : List Bool) :
    withoutRepeats (value :: value :: signal) = withoutRepeats (value :: signal) := by
  simp [withoutRepeats, List.destutter_cons']

theorem withoutRepeats_cons_ne {value other : Bool} (h : value ≠ other) (signal : List Bool) :
    withoutRepeats (value :: other :: signal) = value :: withoutRepeats (other :: signal) := by
  simp [withoutRepeats, List.destutter_cons', h]

theorem head_withoutRepeats (signal : List Bool) :
    (withoutRepeats signal).head? = signal.head? := by
  cases signal with
  | nil => rfl
  | cons value signal =>
    induction signal with
    | nil => rfl
    | cons other signal ih =>
      by_cases h : value = other
      · subst h
        rw [withoutRepeats_cons_same]
        exact ih
      · rw [withoutRepeats_cons_ne h]
        rfl

namespace ToggleHistory

/-- The states of the signal up to its `n`-th toggle, the latest first. -/
def states (h : ToggleHistory) : Nat → List Bool
  | 0 => [h.initial]
  | n + 1 => h.state (n + 1) :: h.states n

variable (h : ToggleHistory)

theorem head_states (n : Nat) : (h.states n).head? = some (h.state n) := by
  cases n with
  | zero => simp [states]
  | succ n => rfl

theorem states_suffix {m n : Nat} (hmn : m ≤ n) : h.states m <:+ h.states n := by
  induction hmn with
  | refl => exact List.suffix_refl _
  | step _ ih => exact ih.trans (List.suffix_cons _ _)

theorem states_put (n : Nat) : h.put.states n = h.states n := by
  induction n with
  | zero => rfl
  | succ n ih => exact congrArg₂ List.cons rfl ih

theorem states_get (lt : h.gets < h.puts) (n : Nat) : (h.get lt).states n = h.states n := by
  induction n with
  | zero => rfl
  | succ n ih => exact congrArg₂ List.cons rfl ih

theorem pending_queue (bound : h.puts - h.gets < 2 ^ 32) : h.queue.pending = h.puts - h.gets := by
  have hle := h.gets_le
  unfold ToggleQueue.pending
  have hsum : h.queue.head = h.queue.tail + BitVec.ofNat 32 (h.puts - h.gets) := by
    simp only [queue, ← BitVec.ofNat_add]
    congr 1
    omega
  rw [hsum, BitVec.add_comm, BitVec.add_sub_cancel, BitVec.toNat_ofNat]
  exact Nat.mod_eq_of_lt bound

/-- The history behind a button's queue, with the levels its interrupt callback was called
with and the values its filler has reported, the latest first. -/
structure Tracks (h : ToggleHistory) (queue : ToggleQueue) (levels reported : List Bool) :
    Prop where
  queue_eq : queue = h.queue
  bound : h.puts - h.gets < 2 ^ 32
  toggles : levels.map (!·) ++ [h.initial] = h.states h.puts
  reports : withoutRepeats (reported ++ [h.initial]) = h.states h.gets

variable {h} {queue : ToggleQueue} {levels reported : List Bool}

theorem tracks_start (initial : Bool) :
    (start initial).Tracks (toggleQueueInit initial) [] [] :=
  ⟨rfl, Nat.two_pow_pos 32, rfl, rfl⟩

/-- What has been reported is the beginning of what has been delivered. -/
theorem Tracks.suffix (t : h.Tracks queue levels reported) :
    withoutRepeats (reported ++ [h.initial]) <:+ levels.map (!·) ++ [h.initial] := by
  rw [t.reports, t.toggles]
  exact h.states_suffix h.gets_le

theorem Tracks.last_level (t : h.Tracks queue levels reported) :
    (!levels.headD (!h.initial)) = h.state h.puts := by
  have hhead := congrArg List.head? t.toggles
  rw [head_states] at hhead
  cases levels with
  | nil => simpa using hhead
  | cons level levels => simpa using hhead

theorem Tracks.last_reported (t : h.Tracks queue levels reported) :
    reported.headD h.initial = h.state h.gets := by
  have hhead := congrArg List.head? t.reports
  rw [head_states, head_withoutRepeats] at hhead
  cases reported with
  | nil => simpa using hhead
  | cons value reported => simpa using hhead

theorem Tracks.put {level : Bool} (t : h.Tracks queue levels reported)
    (alternates : level ≠ levels.headD (!h.initial)) (room : queue.pending + 1 < 2 ^ 32) :
    (toggleQueuePut queue (!level)).1 = ((!level).toNat : Int) ∧
    h.put.Tracks (toggleQueuePut queue (!level)).2 (level :: levels) reported := by
  have hlast := t.last_level
  have hne : (!level) ≠ h.state h.puts := by
    rw [← hlast]
    simpa using alternates
  rw [t.queue_eq, h.pending_queue t.bound] at room
  have hle := h.gets_le
  have hput := h.put_accepted hne
  rw [← t.queue_eq] at hput
  rw [hput]
  refine ⟨rfl, rfl, ?_, ?_, ?_⟩
  · change h.puts + 1 - h.gets < 2 ^ 32
    omega
  · change (!level) :: (levels.map (!·) ++ [h.initial]) = h.put.states (h.puts + 1)
    rw [states_put, t.toggles, states, state_succ]
    have hnext : (!level) = !h.state h.puts := by
      rw [← hlast]
      simpa using (Bool.eq_not_of_ne alternates)
    rw [hnext]
  · rw [states_put]
    exact t.reports

/-- `toggle_queue_get_or_last` takes the oldest toggle, if there is one. -/
theorem Tracks.get (t : h.Tracks queue levels reported) :
    ∃ g : ToggleHistory, g.initial = h.initial ∧
      g.Tracks (toggleQueueGetOrLast queue).2 levels ((toggleQueueGetOrLast queue).1 :: reported) := by
  have hlast := t.last_reported
  have hreports := t.reports
  by_cases lt : h.gets < h.puts
  · have hget := h.getOrLast_pending t.bound lt
    rw [← t.queue_eq] at hget
    rw [hget]
    refine ⟨h.get lt, rfl, rfl, ?_, ?_, ?_⟩
    · have hbound := t.bound
      change h.puts - (h.gets + 1) < 2 ^ 32
      omega
    · rw [states_get]
      exact t.toggles
    · rw [states_get]
      change withoutRepeats (h.state (h.gets + 1) :: (reported ++ [h.initial])) =
        h.state (h.gets + 1) :: h.states h.gets
      rw [← hreports]
      have hne : h.state (h.gets + 1) ≠ h.state h.gets := by
        rw [state_succ]
        simp
      rw [← hlast] at hne
      cases reported with
      | nil => exact withoutRepeats_cons_ne hne _
      | cons value reported => exact withoutRepeats_cons_ne hne _
  · have hget := h.getOrLast_empty (by have := h.gets_le; omega)
    rw [← t.queue_eq] at hget
    rw [hget]
    refine ⟨h, rfl, t.queue_eq, t.bound, t.toggles, ?_⟩
    rw [← hreports, ← hlast]
    cases reported with
    | nil => exact withoutRepeats_cons_same _ _
    | cons value reported => exact withoutRepeats_cons_same _ _

/-- Once the queue is empty, the last value reported is the last state delivered. -/
theorem Tracks.settled (t : h.Tracks queue levels reported) (empty : toggleQueueLen queue = 0)
    {level : Bool} (hlevel : levels.head? = some level) : reported.head? = some !level := by
  have hsame : h.gets = h.puts := by
    rw [toggleQueueLen_eq_zero, t.queue_eq] at empty
    exact (h.queue_empty_iff t.bound).mp empty
  cases levels with
  | nil => simp at hlevel
  | cons last levels =>
    cases Option.some.inj hlevel
    have hreported := t.last_reported
    rw [hsame, ← t.last_level] at hreported
    cases reported with
    | nil =>
      have hstates := t.reports.trans (hsame ▸ t.toggles.symm)
      simp [withoutRepeats] at hstates
    | cons value reported => exact congrArg some hreported

end ToggleHistory

end MyMouse
