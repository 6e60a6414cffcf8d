import MyMouse.BtConn

namespace MyMouse

open Runs

namespace Bt

/-- No client is connected, no advertising runs and no `adv_work` is queued, so nothing
but a reboot will look at the queue again. -/
def Idle (s : Bt) : Prop :=
  s.currentClient = none ∧ s.advertising = none ∧ s.advWorkQueued = false

instance (s : Bt) : Decidable (Idle s) :=
  inferInstanceAs (Decidable (_ ∧ _))

def TurnsTaken (s : Bt) : Prop :=
  Idle s → s.bondsQueue = []

instance (s : Bt) : Decidable (TurnsTaken s) :=
  inferInstanceAs (Decidable (_ → _))

/-- While addresses wait for their turn, `bt_le_adv_start` does not fail and no connection
attempt fails with an error other than the advertising timeout, unless a client, running
advertising or a queued `adv_work` is there to go on. -/
def GoesOn (s : Bt) : BtEvent → Prop
  | .connected _ err => err = 0#8 ∨ err = BT_HCI_ERR_ADV_TIMEOUT ∨ s.currentClient ≠ none ∨
      s.advWorkQueued = true ∨ s.bondsQueue = []
  | .advWork result => result = 0 ∨ s.currentClient ≠ none ∨ s.advertising ≠ none ∨
      s.bondsQueue.tail = []
  | _ => True

instance (s : Bt) : ∀ event, Decidable (GoesOn s event)
  | .connected _ _ => inferInstanceAs (Decidable (_ ∨ _))
  | .advWork _ => inferInstanceAs (Decidable (_ ∨ _))
  | .securityChanged _ _ _ => instDecidableTrue
  | .disconnected _ _ => instDecidableTrue
  | .bondsChanged _ => instDecidableTrue

variable {maxPaired : Nat} {s t : Bt}

theorem connected_turnsTaken {conn : BtConn} {err : BitVec 8}
    (hstep : s.step maxPaired (.connected conn err) = some t) :
    TurnsTaken t ↔ GoesOn s (.connected conn err) := by
  obtain ⟨herr, ht⟩ | ⟨hzero, hnone, ht⟩ := step_connected hstep
  · have hidle : Idle t ↔ s.currentClient = none ∧ s.advWorkQueued = false ∧
        err ≠ BT_HCI_ERR_ADV_TIMEOUT := by
      rw [ht]
      simp [Idle]
    have hqueue : t.bondsQueue = s.bondsQueue := by rw [ht]
    unfold TurnsTaken GoesOn
    rw [hidle, hqueue]
    cases hwork : s.advWorkQueued with
    | true => simp
    | false =>
      by_cases hcurrent : s.currentClient = none
      · by_cases htimeout : err = BT_HCI_ERR_ADV_TIMEOUT
        · simp [htimeout]
        · simp [herr, hcurrent, htimeout]
      · simp [hcurrent]
  · have hconnected : t.currentClient = some conn := by rw [ht]
    exact iff_of_true (fun hidle => by simp [hidle.1] at hconnected) (.inl hzero)

theorem advertisingRun_advertising (result : Int) (s : Bt) :
    (advertisingRun result s).advertising = none ↔
      s.advertising = none ∧ (result = 0 → s.bondsQueue = []) := by
  unfold advertisingRun Bt.leAdvStart
  split
  next hnil => simp [hnil]
  next addr rest hcons =>
    by_cases hresult : result = 0
    · simp only [hresult, hcons]
      split <;> simp
    · simp only [hresult, hcons]
      split <;> simp

theorem advWork_turnsTaken {result : Int} (hstep : s.step maxPaired (.advWork result) = some t) :
    TurnsTaken t ↔ GoesOn s (.advWork result) := by
  simp only [Bt.step] at hstep
  split at hstep
  next =>
    cases Option.some.inj hstep
    have hkeeps := advertisingRun_keeps result { s with advWorkQueued := false }
    have hadv := advertisingRun_advertising result { s with advWorkQueued := false }
    unfold TurnsTaken GoesOn Idle
    rw [hadv, hkeeps]
    by_cases hresult : result = 0
    · simp only [hresult, true_or, iff_true]
      rintro ⟨-, ⟨-, hempty⟩, -⟩
      simp [hempty trivial]
    · by_cases hcurrent : s.currentClient = none
      · by_cases hrunning : s.advertising = none
        · simp [hresult, hcurrent, hrunning]
        · simp [hrunning]
      · simp [hcurrent]
  next => simp at hstep

theorem step_turnsTaken {event : BtEvent} (hclient : s.currentClient = s.connection)
    (hturns : TurnsTaken s) (hstep : s.step maxPaired event = some t) :
    TurnsTaken t ↔ GoesOn s event := by
  cases event with
  | connected conn err => exact connected_turnsTaken hstep
  | advWork result => exact advWork_turnsTaken hstep
  | securityChanged conn level err =>
    refine iff_of_true ?_ trivial
    cases Option.some.inj hstep
    unfold btSecurityChangedCallback
    split
    next => exact hturns
    next => exact hturns
  | disconnected conn reason =>
    obtain ⟨-, ht⟩ := step_disconnected hclient hstep
    have hwork : t.advWorkQueued = true := by rw [ht]
    exact iff_of_true (fun hidle => by simp [hidle.2.2] at hwork) trivial
  | bondsChanged bonds =>
    refine iff_of_true ?_ trivial
    simp only [Bt.step] at hstep
    split at hstep
    next => cases Option.some.inj hstep; exact hturns
    next => simp at hstep

/-- The state `transport_bt_init` leaves behind, also when it gives up early. -/
def afterInit (maxPaired : Nat) (enable settings : Int) (btPublicAdv : Bool)
    (bonds : List BtAddrLe) : Bt :=
  (transportBtInit maxPaired enable settings btPublicAdv (reset bonds)).2

theorem afterInit_currentClient (enable settings : Int) (btPublicAdv : Bool)
    (bonds : List BtAddrLe) :
    (afterInit maxPaired enable settings btPublicAdv bonds).currentClient =
      (afterInit maxPaired enable settings btPublicAdv bonds).connection := by
  unfold afterInit transportBtInit
  split
  next => rfl
  next =>
    split
    next => rfl
    next =>
      rw [transportBtAdvInit_keeps]
      rfl

theorem afterInit_turnsTaken (enable settings : Int) (btPublicAdv : Bool)
    (bonds : List BtAddrLe) : TurnsTaken (afterInit maxPaired enable settings btPublicAdv bonds) := by
  unfold afterInit transportBtInit
  split
  next => exact fun _ => rfl
  next =>
    split
    next => exact fun _ => rfl
    next => exact fun hidle => absurd hidle.2.2 (by simp [transportBtAdvNext])

theorem run_currentClient {enable settings : Int} {btPublicAdv : Bool} {bonds : List BtAddrLe}
    {trace : List (Bt × BtEvent)}
    (run : Run (step maxPaired) (afterInit maxPaired enable settings btPublicAdv bonds) trace s) :
    AllStates (fun s => s.currentClient = s.connection) trace s := by
  have allowed : AllSteps (fun (_ : Bt) (_ : BtEvent) => True) trace := fun _ _ => trivial
  exact run.invariant allowed (afterInit_currentClient enable settings btPublicAdv bonds)
    (fun s event t hclient _ hstep => step_currentClient hclient hstep)

/-- Advertising stops with every address tried exactly in the runs that never lose their
last chance to go on. -/
theorem run_turnsTaken {enable settings : Int} {btPublicAdv : Bool} {bonds : List BtAddrLe}
    {trace : List (Bt × BtEvent)}
    (run : Run (step maxPaired) (afterInit maxPaired enable settings btPublicAdv bonds) trace s) :
    AllStates TurnsTaken trace s ↔ AllSteps GoesOn trace := by
  have start : TurnsTaken (afterInit maxPaired enable settings btPublicAdv bonds) :=
    afterInit_turnsTaken enable settings btPublicAdv bonds
  exact run.allStates_iff_of_invariant (run_currentClient run) start
    (fun s event t hclient hturns hstep => step_turnsTaken hclient hturns hstep)

def twoBonds : List BtAddrLe :=
  [⟨0#8, 1#48⟩, ⟨0#8, 2#48⟩]

/-- The first host times out, the second gets its turn and connects. -/
def bothTried : List BtEvent :=
  [.advWork 0, .connected 1 BT_HCI_ERR_ADV_TIMEOUT, .advWork 0, .connected 1 0#8]

theorem run_turnsTaken_bothTried :
    ∃ trace s, Run (step 2) (afterInit 2 0 0 false twoBonds) trace s ∧
      trace.map Prod.snd = bothTried.reverse ∧ AllStates TurnsTaken trace s := by
  have hreplay : (replay (guarded GoesOn (step 2)) (afterInit 2 0 0 false twoBonds)
      bothTried).isSome = true := by
    decide +kernel
  obtain ⟨trace, s, run, hok, hlabels⟩ := exists_allowed_run hreplay
  exact ⟨trace, s, run, hlabels, (run_turnsTaken run).mpr hok⟩

/-- `bt_le_adv_start` refuses the first host, and the second is never tried. -/
theorem refused_start_skips_turn :
    ∃ trace s, Run (step 2) (afterInit 2 0 0 false twoBonds) trace s ∧
      trace.map Prod.snd = [BtEvent.advWork (-12)] ∧ ¬ TurnsTaken s := by
  have hreplay : (replay (step 2) (afterInit 2 0 0 false twoBonds) [.advWork (-12)]).any
      (fun s => decide (¬ TurnsTaken s)) = true := by
    decide +kernel
  obtain ⟨trace, s, run, hlabels, hidle⟩ := exists_run_of_replay hreplay
  exact ⟨trace, s, run, hlabels, of_decide_eq_true hidle⟩

end Bt

end MyMouse
