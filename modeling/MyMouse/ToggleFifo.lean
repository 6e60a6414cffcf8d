import MyMouse.Simulation
import MyMouse.ToggleQueue

namespace MyMouse

open Machines

inductive ToggleQueueCall
  | put (event : Bool)
  | get
  | getOrLast
  deriving DecidableEq

def toggleQueueStep (queue : ToggleQueue) : ToggleQueueCall → Int × ToggleQueue
  | .put event => toggleQueuePut queue event
  | .get => toggleQueueGet queue
  | .getOrLast => ((toggleQueueGetOrLast queue).1.toNat, (toggleQueueGetOrLast queue).2)

/-- The queue as its users see it: the events put and not yet consumed, the oldest first, and
the last event put and consumed, which are the initial state while there is none. -/
structure AlternatingFifo where
  pending : List Bool
  lastPut : Bool
  lastConsumed : Bool

namespace AlternatingFifo

def start (initialState : Bool) : AlternatingFifo :=
  ⟨[], initialState, initialState⟩

def put (fifo : AlternatingFifo) (event : Bool) : Int × AlternatingFifo :=
  if event = fifo.lastPut then (-EINVAL, fifo)
  else (event.toNat, { fifo with pending := fifo.pending ++ [event], lastPut := event })

def get (fifo : AlternatingFifo) : Int × AlternatingFifo :=
  match fifo.pending with
  | [] => (-ENODATA, fifo)
  | event :: rest => (event.toNat, { fifo with pending := rest, lastConsumed := event })

def getOrLast (fifo : AlternatingFifo) : Int × AlternatingFifo :=
  match fifo.pending with
  | [] => (fifo.lastConsumed.toNat, fifo)
  | event :: rest => (event.toNat, { fifo with pending := rest, lastConsumed := event })

def step (fifo : AlternatingFifo) : ToggleQueueCall → Int × AlternatingFifo
  | .put event => fifo.put event
  | .get => fifo.get
  | .getOrLast => fifo.getOrLast

/-- There is room for one more event when `toggle_queue_put` is called. -/
def HasRoom (fifo : AlternatingFifo) : ToggleQueueCall → Prop
  | .put _ => fifo.pending.length < 2 ^ 32 - 1
  | .get => True
  | .getOrLast => True

instance (fifo : AlternatingFifo) (call : ToggleQueueCall) : Decidable (fifo.HasRoom call) :=
  match call with
  | .put _ => inferInstanceAs (Decidable (_ < _))
  | .get => inferInstanceAs (Decidable True)
  | .getOrLast => inferInstanceAs (Decidable True)

end AlternatingFifo

namespace ToggleHistory

/-- What the history means to the users of its queue. -/
def fifo (h : ToggleHistory) : AlternatingFifo :=
  { pending := (List.range' (h.gets + 1) (h.puts - h.gets)).map h.state
    lastPut := h.state h.puts
    lastConsumed := h.state h.gets }

theorem fifo_start (initial : Bool) : (start initial).fifo = AlternatingFifo.start initial := by
  simp [fifo, start, AlternatingFifo.start, state]

variable (h : ToggleHistory)

theorem fifo_pending_length : h.fifo.pending.length = h.puts - h.gets := by
  simp [fifo]

theorem fifo_put :
    h.put.fifo = { h.fifo with
      pending := h.fifo.pending ++ [h.state (h.puts + 1)], lastPut := h.state (h.puts + 1) } := by
  have hle := h.gets_le
  have hcount : h.puts + 1 - h.gets = (h.puts - h.gets) + 1 := by omega
  have hnext : h.gets + 1 + (h.puts - h.gets) = h.puts + 1 := by omega
  have hpending : h.put.fifo.pending = h.fifo.pending ++ [h.state (h.puts + 1)] := by
    change (List.range' (h.gets + 1) (h.puts + 1 - h.gets)).map h.state = _
    rw [hcount, List.range'_1_concat, hnext, List.map_append]
    rfl
  unfold fifo at hpending ⊢
  rw [AlternatingFifo.mk.injEq]
  exact ⟨hpending, rfl, rfl⟩

theorem fifo_pending_get (lt : h.gets < h.puts) :
    h.fifo.pending = h.state (h.gets + 1) :: (h.get lt).fifo.pending := by
  have hcount : h.puts - h.gets = (h.puts - (h.gets + 1)) + 1 := by omega
  change (List.range' (h.gets + 1) (h.puts - h.gets)).map h.state = _
  rw [hcount, List.range'_succ, List.map_cons]
  rfl

theorem fifo_pending_empty (heq : h.gets = h.puts) : h.fifo.pending = [] := by
  simp [fifo, heq]

theorem fifo_get (lt : h.gets < h.puts) :
    h.fifo.get = (((h.state (h.gets + 1)).toNat : Int), (h.get lt).fifo) := by
  unfold AlternatingFifo.get
  rw [h.fifo_pending_get lt]
  rfl

theorem fifo_getOrLast (lt : h.gets < h.puts) :
    h.fifo.getOrLast = (((h.state (h.gets + 1)).toNat : Int), (h.get lt).fifo) := by
  unfold AlternatingFifo.getOrLast
  rw [h.fifo_pending_get lt]
  rfl

theorem get_pending (bound : h.puts - h.gets < 2 ^ 32) (lt : h.gets < h.puts) :
    toggleQueueGet h.queue = (((h.state (h.gets + 1)).toNat : Int), (h.get lt).queue) := by
  have hne : h.queue.tail ≠ h.queue.head := by
    rw [ne_eq, h.queue_empty_iff bound]
    omega
  exact h.get_of_ne hne

theorem get_empty (heq : h.gets = h.puts) : toggleQueueGet h.queue = (-ENODATA, h.queue) := by
  have hsame : h.queue.tail = h.queue.head := by simp [queue, heq]
  exact if_pos hsame

end ToggleHistory

/-- The counters stand for a history with fewer events pending than they can tell apart. -/
def ToggleQueue.Represents (queue : ToggleQueue) (fifo : AlternatingFifo) : Prop :=
  ∃ h : ToggleHistory, queue = h.queue ∧ fifo = h.fifo ∧ h.puts - h.gets < 2 ^ 32

theorem toggleQueueInit_represents (initialState : Bool) :
    (toggleQueueInit initialState).Represents (AlternatingFifo.start initialState) :=
  ⟨ToggleHistory.start initialState, (ToggleHistory.queue_start initialState).symm,
    (ToggleHistory.fifo_start initialState).symm, Nat.two_pow_pos 32⟩

theorem ToggleHistory.represents (h : ToggleHistory) (bound : h.puts - h.gets < 2 ^ 32) :
    h.queue.Represents h.fifo :=
  ⟨h, rfl, rfl, bound⟩

/-- Taking an event leaves fewer than before. -/
theorem ToggleHistory.represents_get (h : ToggleHistory) (bound : h.puts - h.gets < 2 ^ 32)
    (lt : h.gets < h.puts) : (h.get lt).queue.Represents (h.get lt).fifo := by
  have hless : h.puts - (h.gets + 1) < 2 ^ 32 := by omega
  exact (h.get lt).represents hless

theorem put_simulates (h : ToggleHistory) (event : Bool) (room : h.puts - h.gets < 2 ^ 32 - 1) :
    (toggleQueuePut h.queue event).1 = (h.fifo.put event).1 ∧
    (toggleQueuePut h.queue event).2.Represents (h.fifo.put event).2 := by
  have hle := h.gets_le
  by_cases heq : event = h.state h.puts
  · have hfifo : h.fifo.put event = (-EINVAL, h.fifo) := if_pos heq
    rw [h.put_refused heq, hfifo]
    exact ⟨rfl, h.represents (by omega)⟩
  · have hnext : h.state (h.puts + 1) = event := by
      rw [h.state_succ]
      exact (Bool.eq_not_of_ne heq).symm
    have hfifo : h.fifo.put event = ((event.toNat : Int), h.put.fifo) := by
      rw [h.fifo_put, hnext]
      exact if_neg heq
    have hmore : h.puts + 1 - h.gets < 2 ^ 32 := by omega
    rw [h.put_accepted heq, hfifo]
    exact ⟨rfl, h.put.represents hmore⟩

theorem get_simulates (h : ToggleHistory) (bound : h.puts - h.gets < 2 ^ 32) :
    (toggleQueueGet h.queue).1 = h.fifo.get.1 ∧
    (toggleQueueGet h.queue).2.Represents h.fifo.get.2 := by
  have hle := h.gets_le
  by_cases lt : h.gets < h.puts
  · rw [h.get_pending bound lt, h.fifo_get lt]
    exact ⟨rfl, h.represents_get bound lt⟩
  · have heq : h.gets = h.puts := by omega
    have hfifo : h.fifo.get = (-ENODATA, h.fifo) := by
      unfold AlternatingFifo.get
      rw [h.fifo_pending_empty heq]
    rw [h.get_empty heq, hfifo]
    exact ⟨rfl, h.represents bound⟩

theorem getOrLast_simulates (h : ToggleHistory) (bound : h.puts - h.gets < 2 ^ 32) :
    (((toggleQueueGetOrLast h.queue).1.toNat : Nat) : Int) = h.fifo.getOrLast.1 ∧
    (toggleQueueGetOrLast h.queue).2.Represents h.fifo.getOrLast.2 := by
  have hle := h.gets_le
  by_cases lt : h.gets < h.puts
  · rw [h.getOrLast_pending bound lt, h.fifo_getOrLast lt]
    exact ⟨rfl, h.represents_get bound lt⟩
  · have heq : h.gets = h.puts := by omega
    have hfifo : h.fifo.getOrLast = (((h.state h.gets).toNat : Int), h.fifo) := by
      unfold AlternatingFifo.getOrLast
      rw [h.fifo_pending_empty heq]
      rfl
    rw [h.getOrLast_empty heq, hfifo]
    exact ⟨rfl, h.represents bound⟩

theorem toggleQueue_simulates :
    Simulates toggleQueueStep AlternatingFifo.step AlternatingFifo.HasRoom
      ToggleQueue.Represents := by
  rintro queue fifo call ⟨h, rfl, rfl, bound⟩ room
  cases call with
  | put event =>
    apply put_simulates h event
    rw [← h.fifo_pending_length]
    exact room
  | get => exact get_simulates h bound
  | getOrLast => exact getOrLast_simulates h bound

namespace ToggleQueue.Represents

variable {queue : ToggleQueue} {fifo : AlternatingFifo} (represents : queue.Represents fifo)
include represents

theorem put_changes (room : fifo.pending.length < 2 ^ 32 - 1) {event : Bool}
    (hne : event ≠ fifo.lastPut) : (toggleQueuePut queue event).1 = (event.toNat : Int) := by
  have same := (toggleQueue_simulates queue fifo (.put event) represents room).1
  exact same.trans (congrArg Prod.fst (if_neg hne))

theorem put_repeats {event : Bool} (heq : event = fifo.lastPut) :
    toggleQueuePut queue event = (-EINVAL, queue) := by
  obtain ⟨h, rfl, rfl, _⟩ := represents
  exact h.put_refused heq

theorem history_of_empty (empty : fifo.pending = []) :
    ∃ h : ToggleHistory, queue = h.queue ∧ h.gets = h.puts := by
  obtain ⟨h, rfl, rfl, _⟩ := represents
  have hle := h.gets_le
  have hlength := h.fifo_pending_length
  rw [empty, List.length_nil] at hlength
  exact ⟨h, rfl, by omega⟩

theorem get_none (empty : fifo.pending = []) : toggleQueueGet queue = (-ENODATA, queue) := by
  obtain ⟨h, rfl, heq⟩ := represents.history_of_empty empty
  exact h.get_empty heq

theorem get_oldest {event : Bool} {rest : List Bool} (oldest : fifo.pending = event :: rest) :
    (toggleQueueGet queue).1 = (event.toNat : Int) := by
  have same := (toggleQueue_simulates queue fifo .get represents trivial).1
  have hspec : fifo.get.1 = (event.toNat : Int) := by
    unfold AlternatingFifo.get
    rw [oldest]
  exact same.trans hspec

theorem getOrLast_oldest_or_last :
    (toggleQueueGetOrLast queue).1 = fifo.pending.headD fifo.lastConsumed := by
  obtain ⟨h, rfl, rfl, bound⟩ := represents
  have hle := h.gets_le
  by_cases lt : h.gets < h.puts
  · rw [h.getOrLast_pending bound lt, h.fifo_pending_get lt]
    rfl
  · have heq : h.gets = h.puts := by omega
    rw [h.getOrLast_empty heq, h.fifo_pending_empty heq]
    rfl

theorem getOrLast_none (empty : fifo.pending = []) : (toggleQueueGetOrLast queue).2 = queue := by
  obtain ⟨h, rfl, heq⟩ := represents.history_of_empty empty
  rw [h.getOrLast_empty heq]

end ToggleQueue.Represents

/-- After any calls the queue answers like the FIFO, and so it did on the way. -/
theorem toggleQueue_refines_alternatingFifo (initialState : Bool) (calls : List ToggleQueueCall)
    (admitted : Admits AlternatingFifo.HasRoom AlternatingFifo.step
      (AlternatingFifo.start initialState) calls) :
    let queue := after toggleQueueStep (toggleQueueInit initialState) calls
    let fifo := after AlternatingFifo.step (AlternatingFifo.start initialState) calls
    results toggleQueueStep (toggleQueueInit initialState) calls =
      results AlternatingFifo.step (AlternatingFifo.start initialState) calls ∧
    (∀ event, fifo.pending.length < 2 ^ 32 - 1 → event ≠ fifo.lastPut →
      (toggleQueuePut queue event).1 = (event.toNat : Int)) ∧
    (∀ event, event = fifo.lastPut → toggleQueuePut queue event = (-EINVAL, queue)) ∧
    (∀ event rest, fifo.pending = event :: rest →
      (toggleQueueGet queue).1 = (event.toNat : Int)) ∧
    (fifo.pending = [] → toggleQueueGet queue = (-ENODATA, queue)) ∧
    (toggleQueueGetOrLast queue).1 = fifo.pending.headD fifo.lastConsumed ∧
    (fifo.pending = [] → (toggleQueueGetOrLast queue).2 = queue) := by
  intro queue fifo
  have initially := toggleQueueInit_represents initialState
  have represents : queue.Represents fifo :=
    toggleQueue_simulates.related_after initially admitted
  refine ⟨toggleQueue_simulates.results_eq initially admitted, ?_, ?_, ?_, ?_, ?_, ?_⟩
  · intro event room hne
    exact represents.put_changes room hne
  · intro event heq
    exact represents.put_repeats heq
  · intro event rest oldest
    exact represents.get_oldest oldest
  · exact represents.get_none
  · exact represents.getOrLast_oldest_or_last
  · exact represents.getOrLast_none

theorem toggleQueue_refines_alternatingFifo_clicks :
    (toggleQueueGet (after toggleQueueStep (toggleQueueInit true)
      [.put false, .put true, .put true, .get, .put false, .getOrLast])).1 = 0 := by
  have hroom : Admits AlternatingFifo.HasRoom AlternatingFifo.step (AlternatingFifo.start true)
      [.put false, .put true, .put true, .get, .put false, .getOrLast] := by decide
  exact (toggleQueue_refines_alternatingFifo true _ hroom).2.2.2.1 false [] (by decide)

def INT_MAX : Nat := 2 ^ 31 - 1

/-- The queue with the number of events it has accepted and of events it has given out. -/
structure CountedQueue where
  queue : ToggleQueue
  put : Nat
  consumed : Nat
  deriving DecidableEq

namespace CountedQueue

def start (initialState : Bool) : CountedQueue :=
  ⟨toggleQueueInit initialState, 0, 0⟩

/-- A put and a get count unless they fail, `toggle_queue_get_or_last` when it moves the tail. -/
def step (s : CountedQueue) (call : ToggleQueueCall) : Int × CountedQueue :=
  let (result, queue) := toggleQueueStep s.queue call
  match call with
  | .put _ => (result, { s with queue := queue, put := if result < 0 then s.put else s.put + 1 })
  | .get =>
    (result, { s with queue := queue, consumed := if result < 0 then s.consumed else s.consumed + 1 })
  | .getOrLast =>
    (result,
      { s with queue := queue, consumed := if queue = s.queue then s.consumed else s.consumed + 1 })

def Tracks (s : CountedQueue) (h : ToggleHistory) : Prop :=
  s = ⟨h.queue, h.puts, h.gets⟩

end CountedQueue

namespace ToggleHistory

variable (h : ToggleHistory)

theorem step_put_accepted {event : Bool} (hne : event ≠ h.state h.puts) :
    (CountedQueue.step ⟨h.queue, h.puts, h.gets⟩ (.put event)).2.Tracks h.put := by
  have hnonneg : ¬ ((event.toNat : Int) < 0) := by omega
  simp only [CountedQueue.step, toggleQueueStep, h.put_accepted hne, if_neg hnonneg]
  rfl

theorem step_put_refused {event : Bool} (heq : event = h.state h.puts) :
    (CountedQueue.step ⟨h.queue, h.puts, h.gets⟩ (.put event)).2.Tracks h := by
  have hneg : -EINVAL < 0 := by decide
  simp only [CountedQueue.step, toggleQueueStep, h.put_refused heq, if_pos hneg]
  rfl

theorem step_get : ∃ g, (CountedQueue.step ⟨h.queue, h.puts, h.gets⟩ .get).2.Tracks g := by
  by_cases hsame : h.queue.tail = h.queue.head
  · have hneg : -ENODATA < 0 := by decide
    have hget : toggleQueueGet h.queue = (-ENODATA, h.queue) := if_pos hsame
    refine ⟨h, ?_⟩
    simp only [CountedQueue.step, toggleQueueStep, hget, if_pos hneg]
    rfl
  · have hnonneg : ¬ (((h.state (h.gets + 1)).toNat : Int) < 0) := by omega
    refine ⟨h.get (h.gets_lt_of_ne hsame), ?_⟩
    simp only [CountedQueue.step, toggleQueueStep, h.get_of_ne hsame, if_neg hnonneg]
    rfl

theorem step_getOrLast :
    ∃ g, (CountedQueue.step ⟨h.queue, h.puts, h.gets⟩ .getOrLast).2.Tracks g := by
  by_cases hsame : h.queue.tail = h.queue.head
  · have hget : (toggleQueueGetOrLast h.queue).2 = h.queue := by
      simp [toggleQueueGetOrLast, hsame]
    refine ⟨h, ?_⟩
    simp only [CountedQueue.step, toggleQueueStep, hget, if_true]
    rfl
  · have hmoved : (h.get (h.gets_lt_of_ne hsame)).queue ≠ h.queue := by
      rw [← h.tail_moves]
      intro heq
      have htail := congrArg (fun q => q.tail.toNat) heq
      simp only [BitVec.toNat_add, BitVec.toNat_ofNat] at htail
      omega
    refine ⟨h.get (h.gets_lt_of_ne hsame), ?_⟩
    simp only [CountedQueue.step, toggleQueueStep, h.getOrLast_of_ne hsame, if_neg hmoved]
    rfl

/-- The head leads, and the length subtracts it from the tail. -/
theorem toggleQueueLen_queue (bound : h.puts - h.gets ≤ INT_MAX) :
    toggleQueueLen h.queue = (h.gets : Int) - h.puts := by
  have hle := h.gets_le
  unfold INT_MAX at bound
  have hdiff : (h.queue.tail - h.queue.head).toNat =
      (2 ^ 32 - (h.puts - h.gets)) % 2 ^ 32 := by
    simp only [queue, BitVec.toNat_sub, BitVec.toNat_ofNat]
    omega
  unfold toggleQueueLen
  rw [BitVec.toInt_eq_toNat_cond, hdiff]
  split
  next => omega
  next => omega

end ToggleHistory

theorem CountedQueue.after_tracks (initialState : Bool) (calls : List ToggleQueueCall) :
    ∃ h, (after step (start initialState) calls).Tracks h := by
  apply after_invariant (P := fun s => ∃ h, Tracks s h)
  · exact ⟨ToggleHistory.start initialState, rfl⟩
  · rintro _ call ⟨h, rfl⟩
    cases call with
    | put event =>
      by_cases heq : event = h.state h.puts
      · exact ⟨h, h.step_put_refused heq⟩
      · exact ⟨h.put, h.step_put_accepted heq⟩
    | get => exact h.step_get
    | getOrLast => exact h.step_getOrLast

theorem ToggleHistory.toggleQueueLen_put (h : ToggleHistory) {event : Bool}
    (bound : h.puts + 1 - h.gets ≤ INT_MAX) (succeeds : 0 ≤ (toggleQueuePut h.queue event).1) :
    toggleQueueLen (toggleQueuePut h.queue event).2 = toggleQueueLen h.queue - 1 := by
  have hle := h.gets_le
  have hne : event ≠ h.state h.puts := by
    intro heq
    have hneg : -EINVAL < 0 := by decide
    rw [h.put_refused heq] at succeeds
    exact absurd succeeds (Int.not_le.mpr hneg)
  have hbefore := h.toggleQueueLen_queue (by omega)
  have hafter : toggleQueueLen h.put.queue = (h.gets : Int) - (h.puts + 1 : Nat) :=
    h.put.toggleQueueLen_queue bound
  rw [h.put_accepted hne]
  change toggleQueueLen h.put.queue = _
  omega

/-- While an event is pending the length is the negated number of events, and a successful
put takes it down by one. -/
theorem toggleQueueLen_counts_iff_empty (initialState : Bool) (calls : List ToggleQueueCall) :
    let s := after CountedQueue.step (CountedQueue.start initialState) calls
    s.put - s.consumed ≤ INT_MAX →
    ((toggleQueueLen s.queue = (s.put : Int) - s.consumed ↔ s.queue.tail = s.queue.head) ∧
      (0 ≤ toggleQueueLen s.queue ↔ s.queue.tail = s.queue.head)) ∧
    ∀ event, 0 ≤ (toggleQueuePut s.queue event).1 → s.put + 1 - s.consumed ≤ INT_MAX →
      toggleQueueLen (toggleQueuePut s.queue event).2 ≠ toggleQueueLen s.queue + 1 := by
  intro s bound
  obtain ⟨h, tracks⟩ := CountedQueue.after_tracks initialState calls
  change s = ⟨h.queue, h.puts, h.gets⟩ at tracks
  clear_value s
  subst tracks
  have hle := h.gets_le
  have hlen := h.toggleQueueLen_queue bound
  have hempty : h.queue.tail = h.queue.head ↔ h.gets = h.puts := by
    apply h.queue_empty_iff
    unfold INT_MAX at bound
    change h.puts - h.gets ≤ 2 ^ 31 - 1 at bound
    omega
  refine ⟨⟨?_, ?_⟩, ?_⟩
  · rw [hlen, hempty]
    constructor
    · intro heq
      change (h.gets : Int) - h.puts = h.puts - h.gets at heq
      omega
    · intro heq
      change (h.gets : Int) - h.puts = h.puts - h.gets
      omega
  · rw [hlen, hempty]
    omega
  · intro event succeeds room
    have hput := h.toggleQueueLen_put room succeeds
    change toggleQueueLen (toggleQueuePut h.queue event).2 ≠ toggleQueueLen h.queue + 1
    omega

theorem toggleQueueLen_counts_iff_empty_consumed :
    toggleQueueLen (after CountedQueue.step (CountedQueue.start false) [.put true, .get]).queue =
      ((1 : Nat) : Int) - (1 : Nat) :=
  (toggleQueueLen_counts_iff_empty false [.put true, .get] (by decide)).1.1.mpr (by decide)

theorem toggleQueueLen_one_pending :
    (after CountedQueue.step (CountedQueue.start false) [.put true]).put = 1 ∧
    (after CountedQueue.step (CountedQueue.start false) [.put true]).consumed = 0 ∧
    toggleQueueLen (after CountedQueue.step (CountedQueue.start false) [.put true]).queue = -1 := by
  decide

end MyMouse
