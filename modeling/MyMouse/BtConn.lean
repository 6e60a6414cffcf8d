import Mathlib.Logic.Function.Basic
import Mathlib.Data.List.Nodup
import MyMouse.Run

namespace MyMouse

open Runs

/-- `bt_addr_le_t`. -/
structure BtAddrLe where
  type : BitVec 8
  a : BitVec 48
  deriving DecidableEq

def BT_ADDR_LE_ANY : BtAddrLe := ⟨0#8, 0#48⟩

/-- `bt_security_t`. -/
inductive BtSecurity
  | l0
  | l1
  | l2
  | l3
  | l4
  | forceFips
  deriving DecidableEq

/-- A `struct bt_conn *` other than NULL. -/
abbrev BtConn := Nat

inductive Advertising
  | directed (addr : BtAddrLe)
  | undirected
  deriving DecidableEq

def BT_HCI_ERR_ADV_TIMEOUT : BitVec 8 := 0x3c#8

/-- The globals of adv.c and conn.c, then the Bluetooth stack below them: the bonded
addresses, the references held to each connection object, the one connection there may
be, the advertising that runs, and whether `adv_work` waits in the work queue. -/
structure Bt where
  publicAdvRequested : Bool
  bondsQueue : List BtAddrLe
  currentClient : Option BtConn
  securityLevel : BtSecurity
  bonds : List BtAddrLe
  refs : BtConn → Nat
  connection : Option BtConn
  advertising : Option Advertising
  advWorkQueued : Bool

namespace Bt

def reset (bonds : List BtAddrLe) : Bt :=
  { publicAdvRequested := false, bondsQueue := [], currentClient := none, securityLevel := .l1,
    bonds := bonds, refs := fun _ => 0, connection := none, advertising := none,
    advWorkQueued := false }

/-- `k_msgq_put` without waiting: a full queue refuses the address. -/
def msgqPut (maxPaired : Nat) (s : Bt) (addr : BtAddrLe) : Bt :=
  if s.bondsQueue.length < maxPaired then { s with bondsQueue := s.bondsQueue ++ [addr] } else s

/-- `bt_conn_ref` gives no reference to an object that has none. -/
def connRef (conn : BtConn) (s : Bt) : Option BtConn × Bt :=
  if s.refs conn = 0 then (none, s)
  else (some conn, { s with refs := Function.update s.refs conn (s.refs conn + 1) })

def connUnref (conn : BtConn) (s : Bt) : Bt :=
  { s with refs := Function.update s.refs conn (s.refs conn - 1) }

def leAdvStart (adv : Advertising) (result : Int) (s : Bt) : Bt :=
  if result = 0 then { s with advertising := some adv } else s

end Bt

def transportBtAdvInit (maxPaired : Nat) (publicAdv : Bool) (s : Bt) : Bt :=
  let s := { s with publicAdvRequested := publicAdv, bondsQueue := [] }
  if publicAdv then s.msgqPut maxPaired BT_ADDR_LE_ANY
  else s.bonds.foldl (Bt.msgqPut maxPaired) s

def transportBtAdvNext (s : Bt) : Bt :=
  { s with advWorkQueued := true }

/-- `result` is what `bt_le_adv_start` returns if it is called. -/
def advertisingRun (result : Int) (s : Bt) : Bt :=
  match s.bondsQueue with
  | [] => s
  | addr :: rest =>
    let s := { s with bondsQueue := rest }
    if addr ≠ BT_ADDR_LE_ANY then s.leAdvStart (.directed addr) result
    else s.leAdvStart .undirected result

def transportBtAvailable (s : Bt) : Bool :=
  s.currentClient.isSome &&
    (s.securityLevel == .l2 || s.securityLevel == .l3 || s.securityLevel == .l4)

def btConnectedCallback (conn : BtConn) (err : BitVec 8) (s : Bt) : Bt :=
  if err ≠ 0#8 then
    if err = BT_HCI_ERR_ADV_TIMEOUT then transportBtAdvNext s else s
  else
    let (client, s) := s.connRef conn
    { s with currentClient := client }

def btDisconnectedCallback (maxPaired : Nat) (conn : BtConn) (s : Bt) : Bt :=
  if s.currentClient ≠ some conn then s
  else
    let s := transportBtAdvInit maxPaired (s.publicAdvRequested && !transportBtAvailable s) s
    let s := (transportBtAdvNext s).connUnref conn
    { s with currentClient := none, securityLevel := .l1 }

def btSecurityChangedCallback (conn : BtConn) (level : BtSecurity) (s : Bt) : Bt :=
  if s.currentClient ≠ some conn then s else { s with securityLevel := level }

/-- `enable` and `settings` are the results of `bt_enable` and `settings_load`. -/
def transportBtInit (maxPaired : Nat) (enable settings : Int) (btPublicAdv : Bool) (s : Bt) :
    Int × Bt :=
  if enable ≠ 0 then (enable, s)
  else if settings ≠ 0 then (settings, s)
  else (0, transportBtAdvNext (transportBtAdvInit maxPaired btPublicAdv s))

inductive BtEvent
  | connected (conn : BtConn) (err : BitVec 8)
  | securityChanged (conn : BtConn) (level : BtSecurity) (err : Int)
  | disconnected (conn : BtConn) (reason : BitVec 8)
  | advWork (result : Int)
  | bondsChanged (bonds : List BtAddrLe)
  deriving DecidableEq

namespace Bt

/-- The stack ends the advertising a connection attempt came from, has at most one
connection, and holds a reference to it from before the first callback until after the
last. Each bonded address is in its list once, and the list fits the queue. -/
def step (maxPaired : Nat) (s : Bt) : BtEvent → Option Bt
  | .connected conn err =>
    if err ≠ 0#8 then some (btConnectedCallback conn err { s with advertising := none })
    else if s.connection = none then
      some (btConnectedCallback conn err { s with
        advertising := none
        connection := some conn
        refs := Function.update s.refs conn (s.refs conn + 1) })
    else none
  | .securityChanged conn level _ => some (btSecurityChangedCallback conn level s)
  | .disconnected conn _ =>
    if s.connection = some conn then
      some ({ btDisconnectedCallback maxPaired conn s with connection := none }.connUnref conn)
    else none
  | .advWork result =>
    if s.advWorkQueued then some (advertisingRun result { s with advWorkQueued := false }) else none
  | .bondsChanged bonds =>
    if bonds.length ≤ maxPaired ∧ bonds.Nodup then some { s with bonds := bonds } else none

end Bt

section Callbacks

variable {maxPaired : Nat} {s : Bt} {conn : BtConn} {level : BtSecurity} {publicAdv : Bool}

theorem msgqPut_keeps (addr : BtAddrLe) :
    s.msgqPut maxPaired addr = { s with bondsQueue := (s.msgqPut maxPaired addr).bondsQueue } := by
  unfold Bt.msgqPut
  split <;> rfl

theorem foldl_msgqPut (addrs : List BtAddrLe)
    (hfits : s.bondsQueue.length + addrs.length ≤ maxPaired) :
    addrs.foldl (Bt.msgqPut maxPaired) s = { s with bondsQueue := s.bondsQueue ++ addrs } := by
  induction addrs generalizing s with
  | nil => simp
  | cons addr addrs ih =>
    rw [List.length_cons] at hfits
    have hroom : s.bondsQueue.length < maxPaired := by omega
    have hrest : (s.bondsQueue ++ [addr]).length + addrs.length ≤ maxPaired := by
      rw [List.length_append, List.length_singleton]
      omega
    rw [List.foldl_cons, Bt.msgqPut, if_pos hroom, ih hrest, List.append_assoc,
      List.singleton_append]

theorem foldl_msgqPut_keeps (addrs : List BtAddrLe) :
    addrs.foldl (Bt.msgqPut maxPaired) s =
      { s with bondsQueue := (addrs.foldl (Bt.msgqPut maxPaired) s).bondsQueue } := by
  induction addrs generalizing s with
  | nil => rfl
  | cons addr addrs ih =>
    rw [List.foldl_cons, ih, msgqPut_keeps]

/-- Initialising the advertising touches the request and the queue only. -/
theorem transportBtAdvInit_keeps :
    transportBtAdvInit maxPaired publicAdv s =
      { s with
        publicAdvRequested := publicAdv
        bondsQueue := (transportBtAdvInit maxPaired publicAdv s).bondsQueue } := by
  unfold transportBtAdvInit
  cases publicAdv with
  | true =>
    simp only [↓reduceIte]
    rw [msgqPut_keeps]
  | false =>
    simp only [Bool.false_eq_true, ↓reduceIte]
    rw [foldl_msgqPut_keeps]

theorem transportBtAdvInit_public (hsize : 0 < maxPaired) :
    (transportBtAdvInit maxPaired true s).bondsQueue = [BT_ADDR_LE_ANY] := by
  simp [transportBtAdvInit, Bt.msgqPut, hsize]

theorem transportBtAdvInit_bonds (hfits : s.bonds.length ≤ maxPaired) :
    (transportBtAdvInit maxPaired false s).bondsQueue = s.bonds := by
  simp only [transportBtAdvInit, Bool.false_eq_true, ↓reduceIte]
  rw [foldl_msgqPut s.bonds (by simpa using hfits)]
  rfl

/-- A turn takes one address off the queue and starts advertising, if the stack does. -/
theorem advertisingRun_keeps (result : Int) (s : Bt) :
    advertisingRun result s = { s with
      bondsQueue := s.bondsQueue.tail
      advertising := (advertisingRun result s).advertising } := by
  unfold advertisingRun Bt.leAdvStart
  split
  next hnil =>
    cases s
    cases hnil
    rfl
  next addr rest hcons =>
    simp only [hcons, List.tail_cons]
    split
    next => split <;> rfl
    next => split <;> rfl

theorem connRef_held (hheld : s.refs conn ≠ 0) :
    s.connRef conn = (some conn, { s with refs := Function.update s.refs conn (s.refs conn + 1) }) := by
  rw [Bt.connRef, if_neg hheld]

end Callbacks

section Steps

variable {maxPaired : Nat} {s t : Bt} {conn : BtConn} {err : BitVec 8}

theorem step_connected (hstep : s.step maxPaired (.connected conn err) = some t) :
    (err ≠ 0#8 ∧ t = { s with
      advertising := none
      advWorkQueued := s.advWorkQueued || decide (err = BT_HCI_ERR_ADV_TIMEOUT) }) ∨
    (err = 0#8 ∧ s.connection = none ∧ t = { s with
      advertising := none
      connection := some conn
      currentClient := some conn
      refs := t.refs }) := by
  simp only [Bt.step] at hstep
  split at hstep
  next herr =>
    refine .inl ⟨herr, ?_⟩
    cases Option.some.inj hstep
    unfold btConnectedCallback
    rw [if_pos herr]
    by_cases htimeout : err = BT_HCI_ERR_ADV_TIMEOUT
    · simp [htimeout, transportBtAdvNext]
    · simp [htimeout]
  next herr =>
    have hzero : err = 0#8 := not_not.mp herr
    split at hstep
    next hnone =>
      refine .inr ⟨hzero, hnone, ?_⟩
      cases Option.some.inj hstep
      unfold btConnectedCallback
      rw [if_neg herr, connRef_held (by simp)]
    next => simp at hstep

theorem step_disconnected {reason : BitVec 8} (hclient : s.currentClient = s.connection)
    (hstep : s.step maxPaired (.disconnected conn reason) = some t) :
    s.connection = some conn ∧ t = { s with
      publicAdvRequested := s.publicAdvRequested && !transportBtAvailable s
      bondsQueue := (transportBtAdvInit maxPaired
        (s.publicAdvRequested && !transportBtAvailable s) s).bondsQueue
      advWorkQueued := true
      currentClient := none
      connection := none
      securityLevel := .l1
      refs := t.refs } := by
  simp only [Bt.step] at hstep
  split at hstep
  next hconn =>
    refine ⟨hconn, ?_⟩
    cases Option.some.inj hstep
    have hcurrent : ¬ s.currentClient ≠ some conn := not_not.mpr (hclient.trans hconn)
    unfold btDisconnectedCallback
    rw [if_neg hcurrent, transportBtAdvInit_keeps]
    rfl
  next => simp at hstep

/-- The client the callbacks know is the connection the stack has. -/
theorem step_currentClient {event : BtEvent} (hclient : s.currentClient = s.connection)
    (hstep : s.step maxPaired event = some t) : t.currentClient = t.connection := by
  cases event with
  | connected conn err =>
    obtain ⟨-, ht⟩ | ⟨-, -, ht⟩ := step_connected hstep
    · rw [ht]
      exact hclient
    · rw [ht]
  | securityChanged conn level err =>
    cases Option.some.inj hstep
    unfold btSecurityChangedCallback
    split
    next => exact hclient
    next => exact hclient
  | disconnected conn reason =>
    obtain ⟨-, ht⟩ := step_disconnected hclient hstep
    rw [ht]
  | advWork result =>
    simp only [Bt.step] at hstep
    split at hstep
    next =>
      cases Option.some.inj hstep
      have hrun := advertisingRun_keeps result { s with advWorkQueued := false }
      rw [hrun]
      exact hclient
    next => simp at hstep
  | bondsChanged bonds =>
    simp only [Bt.step] at hstep
    split at hstep
    next => cases Option.some.inj hstep; exact hclient
    next => simp at hstep

end Steps

end MyMouse
