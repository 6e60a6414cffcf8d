import MyMouse.BtTurns

namespace MyMouse

open Runs

namespace Bt

/-- The client connected after a history, the latest event first. -/
def client : List BtEvent → Option BtConn
  | [] => none
  | .connected conn err :: before => if err = 0#8 then some conn else client before
  | .disconnected _ _ :: _ => none
  | _ :: before => client before

/-- The last security level reported for `conn` since a connection was made. -/
def lastLevel (conn : BtConn) : List BtEvent → Option BtSecurity
  | [] => none
  | .connected _ err :: before => if err = 0#8 then none else lastLevel conn before
  | .securityChanged other level _ :: before =>
    if other = conn then some level else lastLevel conn before
  | _ :: before => lastLevel conn before

def Secured (events : List BtEvent) : Prop :=
  ∃ conn level, client events = some conn ∧ lastLevel conn events = some level ∧
    (level = .l2 ∨ level = .l3 ∨ level = .l4)

/-- No connection of the history was available at the moment it disconnected. -/
def NeverAvailableAtLoss (trace : List (Bt × BtEvent)) : Prop :=
  ∀ p ∈ trace, ∀ conn reason, p.2 = .disconnected conn reason → transportBtAvailable p.1 = false

/-- What `securityLevel` holds after a history: level 1 until one is reported for the client. -/
def levelAfter (events : List BtEvent) : BtSecurity :=
  match client events with
  | some conn => (lastLevel conn events).getD .l1
  | none => .l1

structure LinkInv (maxPaired : Nat) (btPublicAdv : Bool) (trace : List (Bt × BtEvent)) (s : Bt) :
    Prop where
  connection : s.currentClient = s.connection
  currentClient : s.currentClient = client (trace.map Prod.snd)
  securityLevel : s.securityLevel = levelAfter (trace.map Prod.snd)
  request : s.publicAdvRequested = true ↔ btPublicAdv = true ∧ NeverAvailableAtLoss trace
  fits : s.bonds.length ≤ maxPaired
  distinct : s.bonds.Nodup

variable {maxPaired : Nat} {btPublicAdv : Bool} {s t : Bt} {trace : List (Bt × BtEvent)}
  {bonds : List BtAddrLe}

theorem neverAvailableAtLoss_cons {event : BtEvent} :
    NeverAvailableAtLoss ((s, event) :: trace) ↔
      (∀ conn reason, event = .disconnected conn reason → transportBtAvailable s = false) ∧
        NeverAvailableAtLoss trace := by
  simp [NeverAvailableAtLoss]

theorem neverAvailableAtLoss_other {event : BtEvent}
    (hother : ∀ conn reason, event ≠ .disconnected conn reason) :
    NeverAvailableAtLoss ((s, event) :: trace) ↔ NeverAvailableAtLoss trace := by
  rw [neverAvailableAtLoss_cons]
  exact and_iff_right (fun conn reason heq => absurd heq (hother conn reason))

theorem neverAvailableAtLoss_disconnected {conn : BtConn} {reason : BitVec 8} :
    NeverAvailableAtLoss ((s, .disconnected conn reason) :: trace) ↔
      transportBtAvailable s = false ∧ NeverAvailableAtLoss trace := by
  rw [neverAvailableAtLoss_cons]
  constructor
  · rintro ⟨hlast, hrest⟩
    exact ⟨hlast conn reason rfl, hrest⟩
  · rintro ⟨hlast, hrest⟩
    exact ⟨fun _ _ _ => hlast, hrest⟩

theorem levelAfter_securityChanged {conn : BtConn} {level : BtSecurity} {err : Int}
    {events : List BtEvent} :
    levelAfter (.securityChanged conn level err :: events) =
      if client events = some conn then level else levelAfter events := by
  have hclient : client (.securityChanged conn level err :: events) = client events := rfl
  unfold levelAfter
  rw [hclient]
  cases hcurrent : client events with
  | none => simp
  | some current =>
    simp only [lastLevel, Option.some.injEq]
    by_cases heq : conn = current
    · simp [heq]
    · simp [heq, Ne.symm heq]

theorem linkInv_start (hfits : bonds.length ≤ maxPaired) (hdistinct : bonds.Nodup) :
    LinkInv maxPaired btPublicAdv [] (afterInit maxPaired 0 0 btPublicAdv bonds) := by
  have hinit : afterInit maxPaired 0 0 btPublicAdv bonds = transportBtAdvNext
      (transportBtAdvInit maxPaired btPublicAdv (reset bonds)) := rfl
  rw [hinit, transportBtAdvInit_keeps]
  have hnever : NeverAvailableAtLoss [] := by simp [NeverAvailableAtLoss]
  exact ⟨rfl, rfl, rfl, by simp [transportBtAdvNext, hnever], hfits, hdistinct⟩

theorem linkInv_connected {conn : BtConn} {err : BitVec 8} (inv : LinkInv maxPaired btPublicAdv trace s)
    (hstep : s.step maxPaired (.connected conn err) = some t) :
    LinkInv maxPaired btPublicAdv ((s, .connected conn err) :: trace) t := by
  have hnever : NeverAvailableAtLoss ((s, .connected conn err) :: trace) ↔
      NeverAvailableAtLoss trace := neverAvailableAtLoss_other (by simp)
  obtain ⟨herr, ht⟩ | ⟨hzero, hnone, ht⟩ := step_connected hstep
  · have hclient : client (.connected conn err :: trace.map Prod.snd) =
        client (trace.map Prod.snd) := by simp [client, herr]
    have hlevel : levelAfter (.connected conn err :: trace.map Prod.snd) =
        levelAfter (trace.map Prod.snd) := by simp [levelAfter, hclient, lastLevel, herr]
    rw [ht]
    exact ⟨inv.connection, inv.currentClient.trans hclient.symm,
      inv.securityLevel.trans hlevel.symm, inv.request.trans (and_congr_right' hnever.symm),
      inv.fits, inv.distinct⟩
  · have hbefore : client (trace.map Prod.snd) = none := by
      rw [← inv.currentClient, inv.connection, hnone]
    have hlevel : s.securityLevel = .l1 := by
      rw [inv.securityLevel, levelAfter, hbefore]
    have hafter : levelAfter (.connected conn err :: trace.map Prod.snd) = .l1 := by
      simp [levelAfter, client, lastLevel, hzero]
    rw [ht]
    exact ⟨rfl, by simp [client, hzero], hlevel.trans hafter.symm,
      inv.request.trans (and_congr_right' hnever.symm), inv.fits, inv.distinct⟩

theorem linkInv_securityChanged {conn : BtConn} {level : BtSecurity} {err : Int}
    (inv : LinkInv maxPaired btPublicAdv trace s)
    (hstep : s.step maxPaired (.securityChanged conn level err) = some t) :
    LinkInv maxPaired btPublicAdv ((s, .securityChanged conn level err) :: trace) t := by
  have hnever : NeverAvailableAtLoss ((s, .securityChanged conn level err) :: trace) ↔
      NeverAvailableAtLoss trace := neverAvailableAtLoss_other (by simp)
  have hlevel : levelAfter (.securityChanged conn level err :: trace.map Prod.snd) =
      if client (trace.map Prod.snd) = some conn then level else levelAfter (trace.map Prod.snd) :=
    levelAfter_securityChanged
  rw [← inv.currentClient, ← inv.securityLevel] at hlevel
  cases Option.some.inj hstep
  unfold btSecurityChangedCallback
  split
  next hother =>
    rw [if_neg hother] at hlevel
    exact ⟨inv.connection, inv.currentClient, hlevel.symm,
      inv.request.trans (and_congr_right' hnever.symm), inv.fits, inv.distinct⟩
  next hcurrent =>
    rw [if_pos (not_not.mp hcurrent)] at hlevel
    exact ⟨inv.connection, inv.currentClient, hlevel.symm,
      inv.request.trans (and_congr_right' hnever.symm), inv.fits, inv.distinct⟩

theorem linkInv_disconnected {conn : BtConn} {reason : BitVec 8}
    (inv : LinkInv maxPaired btPublicAdv trace s)
    (hstep : s.step maxPaired (.disconnected conn reason) = some t) :
    LinkInv maxPaired btPublicAdv ((s, .disconnected conn reason) :: trace) t := by
  obtain ⟨-, ht⟩ := step_disconnected inv.connection hstep
  rw [ht]
  refine ⟨rfl, rfl, rfl, ?_, inv.fits, inv.distinct⟩
  rw [neverAvailableAtLoss_disconnected, and_left_comm, ← inv.request]
  simp [and_comm]

theorem linkInv_step {event : BtEvent} (inv : LinkInv maxPaired btPublicAdv trace s)
    (hstep : s.step maxPaired event = some t) :
    LinkInv maxPaired btPublicAdv ((s, event) :: trace) t := by
  cases event with
  | connected conn err => exact linkInv_connected inv hstep
  | securityChanged conn level err => exact linkInv_securityChanged inv hstep
  | disconnected conn reason => exact linkInv_disconnected inv hstep
  | advWork result =>
    have hnever : NeverAvailableAtLoss ((s, .advWork result) :: trace) ↔
        NeverAvailableAtLoss trace := neverAvailableAtLoss_other (by simp)
    simp only [step] at hstep
    split at hstep
    next =>
      cases Option.some.inj hstep
      have hrun := advertisingRun_keeps result { s with advWorkQueued := false }
      rw [hrun]
      exact ⟨inv.connection, inv.currentClient, inv.securityLevel,
        inv.request.trans (and_congr_right' hnever.symm), inv.fits, inv.distinct⟩
    next => simp at hstep
  | bondsChanged bonds =>
    have hnever : NeverAvailableAtLoss ((s, .bondsChanged bonds) :: trace) ↔
        NeverAvailableAtLoss trace := neverAvailableAtLoss_other (by simp)
    simp only [step] at hstep
    split at hstep
    next hbonds =>
      cases Option.some.inj hstep
      exact ⟨inv.connection, inv.currentClient, inv.securityLevel,
        inv.request.trans (and_congr_right' hnever.symm), hbonds.1, hbonds.2⟩
    next => simp at hstep

theorem run_linkInv (hfits : bonds.length ≤ maxPaired) (hdistinct : bonds.Nodup)
    (run : Run (step maxPaired) (afterInit maxPaired 0 0 btPublicAdv bonds) trace s) :
    LinkInv maxPaired btPublicAdv trace s := by
  induction run with
  | start => exact linkInv_start hfits hdistinct
  | next _ hstep ih => exact linkInv_step ih hstep

theorem LinkInv.available (inv : LinkInv maxPaired btPublicAdv trace s) :
    transportBtAvailable s = true ↔ Secured (trace.map Prod.snd) := by
  have hcurrent := inv.currentClient
  have hlevel := inv.securityLevel
  unfold levelAfter at hlevel
  unfold transportBtAvailable Secured
  cases hclient : client (trace.map Prod.snd) with
  | none => simp [hcurrent.trans hclient]
  | some conn =>
    rw [hclient] at hlevel
    cases hlast : lastLevel conn (trace.map Prod.snd) with
    | none =>
      have hone : s.securityLevel = .l1 := by simpa [hlast] using hlevel
      simp [hone, hlast]
    | some level =>
      have heq : s.securityLevel = level := by simpa [hlast] using hlevel
      simp [hcurrent.trans hclient, heq, hlast, or_assoc]

theorem LinkInv.reinit {conn : BtConn} {reason : BitVec 8} (hsize : 0 < maxPaired)
    (inv : LinkInv maxPaired btPublicAdv trace s)
    (hstep : s.step maxPaired (.disconnected conn reason) = some t) :
    t.advWorkQueued = true ∧
      t.bondsQueue = if t.publicAdvRequested then [BT_ADDR_LE_ANY] else t.bonds := by
  obtain ⟨-, ht⟩ := step_disconnected inv.connection hstep
  rw [ht]
  refine ⟨rfl, ?_⟩
  simp only
  cases s.publicAdvRequested && !transportBtAvailable s with
  | true => simpa using transportBtAdvInit_public hsize
  | false => simpa using transportBtAdvInit_bonds inv.fits

/-- The transport is available exactly while the client of the current connection has
secured it; a disconnection goes back to public advertising exactly when that was asked for
at boot and no connection was lost while available, else to the bonded addresses. -/
theorem run_link_security (hsize : 0 < maxPaired) (hfits : bonds.length ≤ maxPaired)
    (hdistinct : bonds.Nodup)
    (run : Run (step maxPaired) (afterInit maxPaired 0 0 btPublicAdv bonds) trace s) :
    (transportBtAvailable s = true ↔ Secured (trace.map Prod.snd)) ∧
      ∀ conn reason t, s.step maxPaired (.disconnected conn reason) = some t →
        (t.publicAdvRequested = true ↔
          btPublicAdv = true ∧ NeverAvailableAtLoss ((s, .disconnected conn reason) :: trace)) ∧
        t.advWorkQueued = true ∧ t.bonds.Nodup ∧
        t.bondsQueue = if t.publicAdvRequested then [BT_ADDR_LE_ANY] else t.bonds := by
  have inv := run_linkInv hfits hdistinct run
  refine ⟨inv.available, ?_⟩
  intro conn reason t hstep
  have after := linkInv_disconnected inv hstep
  obtain ⟨hwork, hqueue⟩ := inv.reinit hsize hstep
  exact ⟨after.request, hwork, after.distinct, hqueue⟩

/-- A host leaves before it has secured the link, the next one secures it. -/
def securedOnce : List BtEvent :=
  [.advWork 0, .connected 1 0#8, .disconnected 1 0x13#8, .advWork 0, .connected 2 0#8,
    .securityChanged 2 .l2 0]

theorem run_link_security_securedOnce :
    ∃ trace s t, Run (step 2) (afterInit 2 0 0 true twoBonds) trace s ∧
      trace.map Prod.snd = securedOnce.reverse ∧ transportBtAvailable s = true ∧
      Secured (trace.map Prod.snd) ∧ s.publicAdvRequested = true ∧
      s.step 2 (.disconnected 2 0x13#8) = some t ∧
      ¬ NeverAvailableAtLoss ((s, .disconnected 2 0x13#8) :: trace) ∧
      t.advWorkQueued = true ∧ t.bondsQueue = t.bonds := by
  have hreplay : (replay (step 2) (afterInit 2 0 0 true twoBonds) securedOnce).any
      (fun s => transportBtAvailable s && s.publicAdvRequested &&
        (s.step 2 (.disconnected 2 0x13#8)).any (fun t => !t.publicAdvRequested)) = true := by
    decide +kernel
  obtain ⟨trace, s, run, hlabels, hs⟩ := exists_run_of_replay hreplay
  obtain ⟨hboth, hlost⟩ := Bool.and_eq_true_iff.mp hs
  obtain ⟨havailable, hpublic⟩ := Bool.and_eq_true_iff.mp hboth
  obtain ⟨t, hstep, hdirected⟩ := (Option.any_eq_true _ _).mp hlost
  have hnot : t.publicAdvRequested = false := Bool.not_eq_true' _ ▸ hdirected
  obtain ⟨hsecured, hlaw⟩ := run_link_security (by decide) (by decide) (by decide) run
  obtain ⟨hrequest, hwork, -, hqueue⟩ := hlaw 2 0x13#8 t hstep
  refine ⟨trace, s, t, run, hlabels, havailable, hsecured.mp havailable, hpublic, hstep, ?_, hwork, ?_⟩
  · intro hnever
    rw [hrequest.mpr ⟨rfl, hnever⟩] at hnot
    cases hnot
  · rw [hqueue, hnot, if_neg Bool.false_ne_true]

end Bt

end MyMouse
