import MyMouse.Errno
import Mathlib.Algebra.Group.Nat.Defs

namespace MyMouse

/-- Two counters whose last bits are the event last put and the event last consumed. -/
structure ToggleQueue where
  head : BitVec 32
  tail : BitVec 32
  deriving DecidableEq

def lastBit (counter : BitVec 32) : Bool :=
  counter.getLsbD 0

def toggleQueueInit (initialState : Bool) : ToggleQueue :=
  { head := BitVec.ofNat 32 initialState.toNat, tail := BitVec.ofNat 32 initialState.toNat }

/-- The unsigned difference, read as a signed `int`. -/
def toggleQueueLen (queue : ToggleQueue) : Int :=
  (queue.tail - queue.head).toInt

def toggleQueuePut (queue : ToggleQueue) (event : Bool) : Int × ToggleQueue :=
  if lastBit queue.head = event then (-EINVAL, queue)
  else (event.toNat, { queue with head := queue.head + 1#32 })

def toggleQueueGet (queue : ToggleQueue) : Int × ToggleQueue :=
  if queue.tail = queue.head then (-ENODATA, queue)
  else ((lastBit (queue.tail + 1#32)).toNat, { queue with tail := queue.tail + 1#32 })

def toggleQueueGetOrLast (queue : ToggleQueue) : Bool × ToggleQueue :=
  let queue := if queue.tail ≠ queue.head then { queue with tail := queue.tail + 1#32 } else queue
  (lastBit queue.tail, queue)

/-- The abstract queue: a signal that has toggled `puts` times since its initial state, of
which the reader has seen the first `gets`. -/
structure ToggleHistory where
  initial : Bool
  puts : Nat
  gets : Nat
  gets_le : gets ≤ puts

namespace ToggleHistory

def state (h : ToggleHistory) (n : Nat) : Bool :=
  h.initial ^^ decide (n % 2 = 1)

def start (initial : Bool) : ToggleHistory :=
  ⟨initial, 0, 0, Nat.le_refl 0⟩

def put (h : ToggleHistory) : ToggleHistory :=
  { h with puts := h.puts + 1, gets_le := Nat.le_succ_of_le h.gets_le }

def get (h : ToggleHistory) (lt : h.gets < h.puts) : ToggleHistory :=
  { h with gets := h.gets + 1, gets_le := lt }

/-- The counters that stand for a history, whatever their number of wraps. -/
def queue (h : ToggleHistory) : ToggleQueue :=
  { head := BitVec.ofNat 32 (h.initial.toNat + h.puts)
    tail := BitVec.ofNat 32 (h.initial.toNat + h.gets) }

variable (h : ToggleHistory)

theorem lastBit_counter (n : Nat) :
    lastBit (BitVec.ofNat 32 (h.initial.toNat + n)) = h.state n := by
  have hbit : lastBit (BitVec.ofNat 32 (h.initial.toNat + n)) =
      decide ((h.initial.toNat + n) % 2 = 1) := by
    simp only [lastBit, BitVec.getLsbD_ofNat, Nat.testBit_zero]
    simp
  rw [hbit, state]
  cases h.initial with
  | false => simp
  | true =>
    rcases Nat.mod_two_eq_zero_or_one n with hn | hn
    · simp [hn, show (1 + n) % 2 = 1 by omega]
    · simp [hn, show (1 + n) % 2 = 0 by omega]

theorem state_succ (n : Nat) : h.state (n + 1) = !h.state n := by
  unfold state
  rcases Nat.mod_two_eq_zero_or_one n with hn | hn
  · simp [hn, show (n + 1) % 2 = 1 by omega]
  · simp [hn, show (n + 1) % 2 = 0 by omega]

@[simp] theorem state_zero : h.state 0 = h.initial := by
  simp [state]

theorem state_put (n : Nat) : h.put.state n = h.state n := rfl

theorem queue_start (initial : Bool) : (start initial).queue = toggleQueueInit initial := rfl

theorem counter_succ (n : Nat) :
    BitVec.ofNat 32 (h.initial.toNat + n) + 1#32 = BitVec.ofNat 32 (h.initial.toNat + (n + 1)) := by
  rw [← BitVec.ofNat_add]
  rfl

/-- Putting the event that the signal is not in records one more toggle. -/
theorem put_accepted {event : Bool} (hne : event ≠ h.state h.puts) :
    toggleQueuePut h.queue event = ((event.toNat : Int), h.put.queue) := by
  have hbit : lastBit h.queue.head ≠ event := by
    simp only [queue, lastBit_counter]
    exact Ne.symm hne
  unfold toggleQueuePut
  rw [if_neg hbit]
  simp only [queue, counter_succ]
  rfl

theorem put_refused {event : Bool} (heq : event = h.state h.puts) :
    toggleQueuePut h.queue event = (-EINVAL, h.queue) := by
  have hbit : lastBit h.queue.head = event := by
    simp only [queue, lastBit_counter]
    exact heq.symm
  unfold toggleQueuePut
  rw [if_pos hbit]

/-- With fewer than 2^32 events pending the counters differ while any is. -/
theorem queue_empty_iff (bound : h.puts - h.gets < 2 ^ 32) :
    h.queue.tail = h.queue.head ↔ h.gets = h.puts := by
  have hle := h.gets_le
  constructor
  · intro heq
    have hmod := congrArg BitVec.toNat heq
    simp only [queue, BitVec.toNat_ofNat] at hmod
    omega
  · intro heq
    simp [queue, heq]

theorem gets_lt_of_ne (hne : h.queue.tail ≠ h.queue.head) : h.gets < h.puts := by
  have hle := h.gets_le
  have hcounts : h.gets ≠ h.puts := by
    intro heq
    apply hne
    simp [queue, heq]
  omega

theorem tail_moves (lt : h.gets < h.puts) :
    { h.queue with tail := h.queue.tail + 1#32 } = (h.get lt).queue := by
  have htail : h.queue.tail + 1#32 = (h.get lt).queue.tail := h.counter_succ h.gets
  rw [htail]
  rfl

/-- Counters that differ make the reader take the next toggle, whatever their distance. -/
theorem getOrLast_of_ne (hne : h.queue.tail ≠ h.queue.head) :
    toggleQueueGetOrLast h.queue =
      (h.state (h.gets + 1), (h.get (h.gets_lt_of_ne hne)).queue) := by
  unfold toggleQueueGetOrLast
  simp only [if_pos hne, h.tail_moves (h.gets_lt_of_ne hne)]
  exact Prod.ext (h.lastBit_counter (h.gets + 1)) rfl

theorem get_of_ne (hne : h.queue.tail ≠ h.queue.head) :
    toggleQueueGet h.queue =
      (((h.state (h.gets + 1)).toNat : Int), (h.get (h.gets_lt_of_ne hne)).queue) := by
  have hbit : lastBit (h.queue.tail + 1#32) = h.state (h.gets + 1) := by
    rw [← h.lastBit_counter (h.gets + 1), ← h.counter_succ h.gets]
    rfl
  unfold toggleQueueGet
  rw [if_neg hne, hbit, h.tail_moves (h.gets_lt_of_ne hne)]

theorem getOrLast_pending (bound : h.puts - h.gets < 2 ^ 32) (lt : h.gets < h.puts) :
    toggleQueueGetOrLast h.queue = (h.state (h.gets + 1), (h.get lt).queue) := by
  have hne : h.queue.tail ≠ h.queue.head := by
    rw [ne_eq, h.queue_empty_iff bound]
    omega
  exact h.getOrLast_of_ne hne

theorem getOrLast_empty (heq : h.gets = h.puts) :
    toggleQueueGetOrLast h.queue = (h.state h.gets, h.queue) := by
  have hsame : h.queue.tail = h.queue.head := by simp [queue, heq]
  unfold toggleQueueGetOrLast
  simp only [ne_eq, hsame, not_true_eq_false, if_false]
  rw [← hsame]
  exact Prod.ext (h.lastBit_counter h.gets) rfl

end ToggleHistory

end MyMouse
