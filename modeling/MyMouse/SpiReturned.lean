import MyMouse.SpiManaged

namespace MyMouse

open Runs

def Spi.Quiet (s : Spi) : Prop := s.inFlight = [] ∧ s.syncSem = 0

/-- The bus while a call waits: one transfer of its own in flight, or its last one ended. -/
structure Spi.WaitedFor (call : Nat) (s : Spi) : Prop where
  slot : s.isrCtx.map Prod.snd = some call
  bus : (s.syncSem = 0 ∧ ∃ spec, s.inFlight = [⟨call, spec⟩]) ∨
    (s.syncSem = 1 ∧ s.inFlight = [])

namespace ManagedSpi

/-- What the mutex protects, by what the threads do next. -/
structure BusOk (pc : Nat → ManagedPc) (spi : Spi) : Prop where
  owner : ∀ thread, (pc thread).locked = true → spi.mutexOwner = some thread
  slot : ∀ thread call, pc thread = .start call → spi.isrCtx.map Prod.snd = some call.id
  waited : ∀ thread call, pc thread = .take call → spi.WaitedFor call.id
  quiet : (∀ thread call, pc thread ≠ .take call) → spi.Quiet

/-- Each call is made by one thread, and returns once. -/
structure CallsOk (pc : Nat → ManagedPc) (nextCall : Nat) (returned : List (Nat × Int)) : Prop where
  call_lt : ∀ thread call, (pc thread).call? = some call → call.id < nextCall
  returned_lt : ∀ call err, (call, err) ∈ returned → call < nextCall
  not_returned : ∀ thread call err, (pc thread).call? = some call → (call.id, err) ∉ returned
  unique : ∀ thread other call call', (pc thread).call? = some call →
    (pc other).call? = some call' → call.id = call'.id → thread = other

structure Inv (s : ManagedSpi) : Prop where
  bus : BusOk s.pc s.spi
  calls : CallsOk s.pc s.nextCall s.returned

variable {handshakeRxBuf : BitVec 32} {s t : ManagedSpi} {thread other : Nat} {p : ManagedPc}
  {pc : Nat → ManagedPc} {spi spi' : Spi} {nextCall : Nat} {returned : List (Nat × Int)}

@[simp] theorem moveTo_pc : (s.moveTo thread p).pc = Function.update s.pc thread p := rfl

@[simp] theorem moveTo_spi : (s.moveTo thread p).spi = s.spi := rfl

theorem BusOk.others_unlocked (h : BusOk pc spi) (hlocked : (pc thread).locked = true)
    (hne : other ≠ thread) : (pc other).locked = false := by
  rw [← Bool.not_eq_true]
  intro hother
  have hthread := h.owner thread hlocked
  rw [h.owner other hother] at hthread
  exact hne (Option.some.inj hthread)

theorem locked_take {call : SpiCall} (h : p = .take call) : p.locked = true := by
  rw [h]
  rfl

theorem locked_start {call : SpiCall} (h : p = .start call) : p.locked = true := by
  rw [h]
  rfl

/-- A thread without the lock moves on and leaves the bus alone. -/
theorem BusOk.move_unlocked (h : BusOk pc spi) (hfrom : (pc thread).locked = false)
    (hto : p.locked = false)
    (howner : ∀ other, other ≠ thread → spi.mutexOwner = some other → spi'.mutexOwner = some other)
    (hslot : spi'.isrCtx = spi.isrCtx) (hsem : spi'.syncSem = spi.syncSem)
    (hflight : spi'.inFlight = spi.inFlight) : BusOk (Function.update pc thread p) spi' := by
  have hsame : ∀ other, (Function.update pc thread p other).locked = true →
      other ≠ thread ∧ Function.update pc thread p other = pc other := by
    intro other hlocked
    have hne : other ≠ thread := by
      rintro rfl
      simp [hto] at hlocked
    exact ⟨hne, Function.update_of_ne hne p pc⟩
  refine ⟨?_, ?_, ?_, ?_⟩
  · intro other hlocked
    obtain ⟨hne, heq⟩ := hsame other hlocked
    rw [heq] at hlocked
    exact howner other hne (h.owner other hlocked)
  · intro other call hstart
    rw [(hsame other (locked_start hstart)).2] at hstart
    rw [hslot]
    exact h.slot other call hstart
  · intro other call htake
    rw [(hsame other (locked_take htake)).2] at htake
    obtain ⟨slot, bus⟩ := h.waited other call htake
    rw [← hslot] at slot
    rw [← hsem, ← hflight] at bus
    exact ⟨slot, bus⟩
  · intro hnone
    have hquiet : spi.Quiet := by
      refine h.quiet (fun other call htake => ?_)
      have hne : other ≠ thread := by
        rintro rfl
        simp [htake, ManagedPc.locked] at hfrom
      exact hnone other call ((Function.update_of_ne hne p pc).trans htake)
    exact ⟨hflight.trans hquiet.1, hsem.trans hquiet.2⟩

/-- The one thread that has the lock, or gets it, moves on. -/
theorem busOk_of_sole (hothers : ∀ other, other ≠ thread → (pc other).locked = false)
    (howner : p.locked = true → spi.mutexOwner = some thread)
    (hslot : ∀ call, p = .start call → spi.isrCtx.map Prod.snd = some call.id)
    (hwaited : ∀ call, p = .take call → spi.WaitedFor call.id)
    (hquiet : (∀ call, p ≠ .take call) → spi.Quiet) : BusOk (Function.update pc thread p) spi := by
  have hsole : ∀ other, (Function.update pc thread p other).locked = true → other = thread := by
    intro other hlocked
    by_contra hne
    rw [Function.update_of_ne hne, hothers other hne] at hlocked
    simp at hlocked
  refine ⟨?_, ?_, ?_, ?_⟩
  · intro other hlocked
    obtain rfl := hsole other hlocked
    rw [Function.update_self] at hlocked
    exact howner hlocked
  · intro other call hstart
    obtain rfl := hsole other (locked_start hstart)
    rw [Function.update_self] at hstart
    exact hslot call hstart
  · intro other call htake
    obtain rfl := hsole other (locked_take htake)
    rw [Function.update_self] at htake
    exact hwaited call htake
  · intro hnone
    refine hquiet (fun call htake => hnone thread call ?_)
    rw [Function.update_self, htake]

theorem BusOk.quiet_of_locked (h : BusOk pc spi) (hlocked : (pc thread).locked = true)
    (hnot : ∀ call, pc thread ≠ .take call) : spi.Quiet := by
  refine h.quiet (fun other call htake => ?_)
  by_cases heq : other = thread
  · rw [heq] at htake
    exact hnot call htake
  · have := h.others_unlocked hlocked heq
    simp [htake, ManagedPc.locked] at this

theorem CallsOk.move (h : CallsOk pc nextCall returned)
    (hkeep : ∀ call, p.call? = some call → (pc thread).call? = some call) :
    CallsOk (Function.update pc thread p) nextCall returned := by
  have hcall : ∀ other call, (Function.update pc thread p other).call? = some call →
      (pc other).call? = some call := by
    intro other call hother
    by_cases heq : other = thread
    · subst heq
      rw [Function.update_self] at hother
      exact hkeep call hother
    · rwa [Function.update_of_ne heq] at hother
  refine ⟨?_, h.returned_lt, ?_, ?_⟩
  · intro other call hother
    exact h.call_lt other call (hcall other call hother)
  · intro other call err hother
    exact h.not_returned other call err (hcall other call hother)
  · intro first second call call' hfirst hsecond hid
    exact h.unique first second call call' (hcall first call hfirst) (hcall second call' hsecond) hid

theorem CallsOk.start_call (h : CallsOk pc nextCall returned) {request : SpiRequest} :
    CallsOk (Function.update pc thread (.prepare ⟨nextCall, request⟩ 0)) (nextCall + 1)
      returned := by
  have hcall : ∀ other call,
      (Function.update pc thread (.prepare ⟨nextCall, request⟩ 0) other).call? = some call →
      (other = thread ∧ call.id = nextCall) ∨ (pc other).call? = some call := by
    intro other call hother
    by_cases heq : other = thread
    · subst heq
      rw [Function.update_self] at hother
      cases hother
      exact Or.inl ⟨rfl, rfl⟩
    · rw [Function.update_of_ne heq] at hother
      exact Or.inr hother
  refine ⟨?_, ?_, ?_, ?_⟩
  · intro other call hother
    rcases hcall other call hother with ⟨_, hid⟩ | hold
    · omega
    · have := h.call_lt other call hold
      omega
  · intro call err hmem
    have := h.returned_lt call err hmem
    omega
  · intro other call err hother hmem
    rcases hcall other call hother with ⟨_, hid⟩ | hold
    · have := h.returned_lt call.id err hmem
      omega
    · exact h.not_returned other call err hold hmem
  · intro first second call call' hfirst hsecond hid
    rcases hcall first call hfirst with ⟨hft, hfid⟩ | hfold
    · rcases hcall second call' hsecond with ⟨hst, _⟩ | hsold
      · rw [hft, hst]
      · have := h.call_lt second call' hsold
        omega
    · rcases hcall second call' hsecond with ⟨_, hsid⟩ | hsold
      · have := h.call_lt first call hfold
        omega
      · exact h.unique first second call call' hfold hsold hid

theorem CallsOk.return_call (h : CallsOk pc nextCall returned) {call : SpiCall} {err : Int}
    (hpc : (pc thread).call? = some call) :
    CallsOk (Function.update pc thread .idle) nextCall ((call.id, err) :: returned) := by
  have hmoved : CallsOk (Function.update pc thread .idle) nextCall returned :=
    h.move (fun c hc => by simp [ManagedPc.call?] at hc)
  refine ⟨hmoved.call_lt, ?_, ?_, hmoved.unique⟩
  · intro id result hmem
    rcases List.mem_cons.mp hmem with heq | hold
    · cases heq
      exact h.call_lt thread call hpc
    · exact h.returned_lt id result hold
  · intro other call' result hother hmem
    rcases List.mem_cons.mp hmem with heq | hold
    · have hid : call'.id = call.id := (Prod.mk.inj heq).1
      have hne : other ≠ thread := by
        rintro rfl
        simp [ManagedPc.call?] at hother
      rw [Function.update_of_ne hne] at hother
      exact hne (h.unique other thread call' call hother hpc hid)
    · exact hmoved.not_returned other call' result hother hold

theorem assign_bus (request : SpiRequest) (assigned : Nat) (spi : Spi) :
    (request.assign assigned spi).mutexOwner = spi.mutexOwner ∧
      (request.assign assigned spi).isrCtx = spi.isrCtx ∧
      (request.assign assigned spi).syncSem = spi.syncSem ∧
      (request.assign assigned spi).inFlight = spi.inFlight := by
  cases request <;> (unfold SpiRequest.assign; split <;> exact ⟨rfl, rfl, rfl, rfl⟩)

theorem inv_reset : Inv reset := by
  refine ⟨⟨?_, ?_, ?_, fun _ => ⟨rfl, rfl⟩⟩, ⟨?_, ?_, ?_, ?_⟩⟩ <;>
    simp [reset, ManagedPc.locked, ManagedPc.call?]

theorem inv_prepare {call : SpiCall} {assigned : Nat} (h : Inv s)
    (hpc : s.pc thread = .prepare call assigned) (hrun : s.runThread handshakeRxBuf thread = some t) :
    Inv t := by
  obtain ⟨howner, hslot, hsem, hflight⟩ := assign_bus call.request assigned s.spi
  simp only [runThread, hpc] at hrun
  cases Option.some.inj hrun
  refine ⟨h.bus.move_unlocked (by simp [hpc, ManagedPc.locked]) ?_ ?_ hslot hsem hflight,
    h.calls.move ?_⟩
  · split <;> rfl
  · intro other _ hother
    rw [howner, hother]
  · intro call' hcall'
    rw [hpc]
    split at hcall' <;> exact hcall'

theorem inv_lock {call : SpiCall} (h : Inv s) (hpc : s.pc thread = .lock call)
    (hrun : s.runThread handshakeRxBuf thread = some t) : Inv t := by
  simp only [runThread, hpc] at hrun
  split at hrun
  next hfree =>
    cases Option.some.inj hrun
    have hunlocked : ∀ other, (s.pc other).locked = false := by
      intro other
      rw [← Bool.not_eq_true]
      intro hother
      have := h.bus.owner other hother
      simp [hfree] at this
    have hquiet : s.spi.Quiet := by
      refine h.bus.quiet (fun other call' htake => ?_)
      have := hunlocked other
      simp [htake, ManagedPc.locked] at this
    refine ⟨busOk_of_sole (fun other _ => hunlocked other) (fun _ => rfl)
      (fun _ hstart => by simp at hstart) (fun _ htake => by simp at htake) (fun _ => hquiet),
      h.calls.move ?_⟩
    intro call' hcall'
    rw [hpc]
    exact hcall'
  next => simp at hrun

theorem inv_move_quiet {call : SpiCall} (h : Inv s) (hlocked : (s.pc thread).locked = true)
    (hcall : (s.pc thread).call? = some call) (hp : p.call? = some call)
    (howner : spi.mutexOwner = s.spi.mutexOwner)
    (hslot : ∀ c, p = .start c → spi.isrCtx.map Prod.snd = some c.id) (hnot : ∀ c, p ≠ .take c)
    (hquiet : spi.Quiet) : Inv { s.moveTo thread p with spi := spi } := by
  refine ⟨busOk_of_sole (fun other hne => h.bus.others_unlocked hlocked hne)
    (fun _ => howner.trans (h.bus.owner thread hlocked)) hslot (fun c hc => absurd hc (hnot c))
    (fun _ => hquiet), h.calls.move ?_⟩
  intro call' hcall'
  rw [hcall, ← hp, hcall']

theorem inv_configure {call : SpiCall} (h : Inv s) (hpc : s.pc thread = .configure call)
    (hrun : s.runThread handshakeRxBuf thread = some t) : Inv t := by
  have hlocked : (s.pc thread).locked = true := by rw [hpc]; rfl
  have hcall : (s.pc thread).call? = some call := by rw [hpc]; rfl
  have hquiet := h.bus.quiet_of_locked hlocked (by simp [hpc])
  simp only [runThread, hpc] at hrun
  split at hrun
  next =>
    cases Option.some.inj hrun
    exact inv_move_quiet h hlocked hcall rfl rfl (fun _ hs => by simp at hs) (by simp) hquiet
  next =>
    cases Option.some.inj hrun
    exact inv_move_quiet h hlocked hcall rfl rfl (fun _ hs => by simp at hs) (by simp) hquiet

theorem setup_ok {caller : SpiCaller} {spec : SpiTransferSpec} {callback : SpiDoneCallback}
    {call : Nat} (h : spiTransceiveSetup caller spec callback call spi = .ok spi') :
    spi' = { spi with isrCtx := some (callback, call) } := by
  unfold spiTransceiveSetup at h
  split at h
  next =>
    split at h
    next => simp at h
    next => exact (Except.ok.inj h).symm
  next => simp at h

theorem inv_transceive {call : SpiCall} (h : Inv s) (hpc : s.pc thread = .transceive call)
    (hrun : s.runThread handshakeRxBuf thread = some t) : Inv t := by
  have hlocked : (s.pc thread).locked = true := by rw [hpc]; rfl
  have hcall : (s.pc thread).call? = some call := by rw [hpc]; rfl
  have hquiet := h.bus.quiet_of_locked hlocked (by simp [hpc])
  simp only [runThread, hpc] at hrun
  split at hrun
  next =>
    cases Option.some.inj hrun
    exact inv_move_quiet h hlocked hcall rfl rfl (fun _ hs => by simp at hs) (by simp) hquiet
  next spi hsetup =>
    cases Option.some.inj hrun
    have hspi := setup_ok hsetup
    have hslot : spi.isrCtx.map Prod.snd = some call.id := by rw [hspi]; rfl
    refine inv_move_quiet h hlocked hcall rfl (by rw [hspi]) ?_ (by simp) (by rw [hspi]; exact hquiet)
    intro c hc
    cases hc
    exact hslot

theorem inv_start {call : SpiCall} (h : Inv s) (hpc : s.pc thread = .start call)
    (hrun : s.runThread handshakeRxBuf thread = some t) : Inv t := by
  have hlocked : (s.pc thread).locked = true := by rw [hpc]; rfl
  obtain ⟨hflight, hsem⟩ := h.bus.quiet_of_locked hlocked (by simp [hpc])
  simp only [runThread, hpc] at hrun
  cases Option.some.inj hrun
  refine ⟨busOk_of_sole (fun other hne => h.bus.others_unlocked hlocked hne)
    (fun _ => h.bus.owner thread hlocked) (fun c hc => by simp at hc) ?_
    (fun hnot => absurd rfl (hnot call)), h.calls.move ?_⟩
  · intro c hc
    cases hc
    exact ⟨h.bus.slot thread call hpc, Or.inl ⟨hsem, call.request.spec handshakeRxBuf, by
      simp [Spi.start, hflight]⟩⟩
  · intro call' hcall'
    rw [hpc]
    exact hcall'

theorem inv_take {call : SpiCall} (h : Inv s) (hpc : s.pc thread = .take call)
    (hrun : s.runThread handshakeRxBuf thread = some t) : Inv t := by
  have hlocked : (s.pc thread).locked = true := by rw [hpc]; rfl
  have hcall : (s.pc thread).call? = some call := by rw [hpc]; rfl
  simp only [runThread, hpc] at hrun
  split at hrun
  next => simp at hrun
  next hposted =>
    cases Option.some.inj hrun
    have hquiet : Spi.Quiet { s.spi with syncSem := s.spi.syncSem - 1 } := by
      rcases (h.bus.waited thread call hpc).bus with ⟨hsem, _⟩ | ⟨hsem, hflight⟩
      · exact absurd hsem hposted
      · exact ⟨hflight, by simp [hsem]⟩
    exact inv_move_quiet h hlocked hcall rfl rfl (fun _ hs => by simp at hs) (by simp) hquiet

theorem spiUnlock_bus (thread : Nat) (spi : Spi) : (spiUnlock thread spi).isrCtx = spi.isrCtx ∧
    (spiUnlock thread spi).syncSem = spi.syncSem ∧
    (spiUnlock thread spi).inFlight = spi.inFlight := by
  unfold spiUnlock
  split <;> exact ⟨rfl, rfl, rfl⟩

theorem spiUnlock_owner (hother : spi.mutexOwner = some other) (hne : other ≠ thread) :
    (spiUnlock thread spi).mutexOwner = some other := by
  unfold spiUnlock
  rw [if_neg (by simp [hother, hne])]
  exact hother

theorem inv_exit {call : SpiCall} {err : Int} (h : Inv s) (hpc : s.pc thread = .exit call err)
    (hrun : s.runThread handshakeRxBuf thread = some t) : Inv t := by
  obtain ⟨hslot, hsem, hflight⟩ := spiUnlock_bus thread s.spi
  simp only [runThread, hpc] at hrun
  cases Option.some.inj hrun
  refine ⟨h.bus.move_unlocked (by simp [hpc, ManagedPc.locked]) rfl
    (fun other hne howner => spiUnlock_owner howner hne) hslot hsem hflight, ?_⟩
  exact h.calls.return_call (by rw [hpc]; rfl)

theorem inv_runThread (h : Inv s) (hrun : s.runThread handshakeRxBuf thread = some t) : Inv t := by
  cases hpc : s.pc thread with
  | idle => simp [runThread, hpc] at hrun
  | prepare call assigned => exact inv_prepare h hpc hrun
  | lock call => exact inv_lock h hpc hrun
  | configure call => exact inv_configure h hpc hrun
  | transceive call => exact inv_transceive h hpc hrun
  | start call => exact inv_start h hpc hrun
  | take call => exact inv_take h hpc hrun
  | exit call err => exact inv_exit h hpc hrun

theorem receive_bus (handshakeRxBuf : BitVec 32) (transfer : SpiTransfer) (rx : BitVec 8) (spi : Spi) :
    (receive handshakeRxBuf transfer rx spi).mutexOwner = spi.mutexOwner ∧
      (receive handshakeRxBuf transfer rx spi).isrCtx = spi.isrCtx ∧
      (receive handshakeRxBuf transfer rx spi).syncSem = spi.syncSem ∧
      (receive handshakeRxBuf transfer rx spi).inFlight = spi.inFlight := by
  unfold receive
  split <;> exact ⟨rfl, rfl, rfl, rfl⟩

/-- A transfer in flight belongs to the call of a thread that waits for it. -/
theorem BusOk.waiting_of_inFlight (h : BusOk pc spi) (hflight : spi.inFlight ≠ []) :
    ∃ thread call, pc thread = .take call ∧ spi.isrCtx.map Prod.snd = some call.id ∧
      spi.syncSem = 0 ∧ ∃ spec, spi.inFlight = [⟨call.id, spec⟩] := by
  by_contra hnone
  have hquiet : spi.Quiet := by
    refine h.quiet (fun thread call htake => ?_)
    obtain ⟨hslot, hbus⟩ := h.waited thread call htake
    rcases hbus with ⟨hsem, spec, hspec⟩ | ⟨_, hempty⟩
    · exact hnone ⟨thread, call, htake, hslot, hsem, spec, hspec⟩
    · exact hflight hempty
  exact hflight hquiet.1

theorem inv_spiIrq {index : Nat} {rx : BitVec 8} (h : Inv s)
    (hstep : step handshakeRxBuf s (.spiIrq index rx) = some t) : Inv t := by
  simp only [step] at hstep
  split at hstep
  next transfer hget =>
    cases Option.some.inj hstep
    have hpresent : s.spi.inFlight ≠ [] := by
      intro hempty
      simp [hempty] at hget
    obtain ⟨thread, call, htake, hslot, hsem, spec, hspec⟩ := h.bus.waiting_of_inFlight hpresent
    have hlocked := locked_take htake
    have hindex : index = 0 := by
      obtain ⟨hlt, _⟩ := List.getElem?_eq_some_iff.mp hget
      simp [hspec] at hlt
      exact hlt
    have hempty : s.spi.inFlight.eraseIdx index = [] := by
      rw [hspec, hindex]
      rfl
    obtain ⟨rowner, rslot, rsem, rflight⟩ := receive_bus handshakeRxBuf
      transfer rx { s.spi with inFlight := s.spi.inFlight.eraseIdx index }
    have hdone := spiIrqHandler_doneFor ((congrArg (Option.map Prod.snd) rslot).trans hslot)
    have hpc : s.pc = Function.update s.pc thread (.take call) := by
      rw [← htake, Function.update_eq_self]
    refine ⟨?_, h.calls⟩
    change BusOk s.pc _
    rw [hpc]
    refine busOk_of_sole (fun other hne => h.bus.others_unlocked hlocked hne)
      (fun _ => hdone.owner.trans (rowner.trans (h.bus.owner thread hlocked)))
      (fun c hc => by simp at hc) ?_ (fun hnot => absurd rfl (hnot call))
    intro c hc
    cases hc
    refine ⟨hdone.slot, ?_⟩
    rcases hdone.bus with ⟨gsem, gflight⟩ | ⟨csem, spec', cflight⟩
    · exact Or.inr ⟨gsem, gflight.trans (rflight.trans hempty)⟩
    · refine Or.inl ⟨csem.trans (rsem.trans hsem), spec', ?_⟩
      rw [cflight, rflight, hempty]
      rfl
  next => simp at hstep

theorem inv_timeout (h : Inv s) (intime : InTime s (.timeout thread))
    (hstep : step handshakeRxBuf s (.timeout thread) = some t) : Inv t := by
  simp only [step] at hstep
  split at hstep
  next call hpc =>
    split at hstep
    next => simp at hstep
    next =>
      cases Option.some.inj hstep
      refine ⟨h.bus.move_unlocked intime rfl (fun _ _ howner => howner) rfl rfl rfl, h.calls.move ?_⟩
      intro call' hcall'
      rw [hpc]
      exact hcall'
  next call hpc =>
    change (s.pc thread).locked = false at intime
    simp [hpc, ManagedPc.locked] at intime
  next => simp at hstep

theorem inv_step {a : ManagedStep} (h : Inv s) (intime : InTime s a)
    (hstep : step handshakeRxBuf s a = some t) : Inv t := by
  cases a with
  | call thread request =>
    simp only [step] at hstep
    split at hstep
    next hidle =>
      cases Option.some.inj hstep
      refine ⟨h.bus.move_unlocked (by simp [hidle, ManagedPc.locked]) rfl
        (fun _ _ howner => howner) rfl rfl rfl, h.calls.start_call⟩
    next => simp at hstep
  | run thread => exact inv_runThread h hstep
  | timeout thread => exact inv_timeout h intime hstep
  | spiIrq index rx => exact inv_spiIrq h hstep

theorem Inv.returnedOver (h : Inv s) : ReturnedOver s := by
  intro id err hreturned transfer hmem hcall
  obtain ⟨thread, call, htake, _, _, spec, hspec⟩ :=
    h.bus.waiting_of_inFlight (List.ne_nil_of_mem hmem)
  have hid : id = call.id := by
    rw [hspec, List.mem_singleton] at hmem
    rw [← hcall, hmem]
  rw [hid] at hreturned
  exact h.calls.not_returned thread call err (by rw [htake]; rfl) hreturned

/-- A call whose wait for the end of the transaction times out returns with a transfer of
its own in flight, unless the interrupt comes before it gets to return. -/
theorem timeout_in_flight {call : SpiCall} {u : ManagedSpi} (h : Inv s)
    (hpc : s.pc thread = .take call) (htimeout : step handshakeRxBuf s (.timeout thread) = some t)
    (hreturn : step handshakeRxBuf t (.run thread) = some u) :
    (call.id, -EAGAIN) ∈ u.returned ∧ ¬ ReturnedOver u := by
  simp only [step, hpc] at htimeout
  split at htimeout
  next hsem =>
    cases Option.some.inj htimeout
    have hexit : (s.moveTo thread (.exit call (-EAGAIN))).pc thread = .exit call (-EAGAIN) := by
      simp
    simp only [step, runThread, hexit] at hreturn
    cases Option.some.inj hreturn
    have hflight := (spiUnlock_bus thread s.spi).2.2
    refine ⟨by simp, fun hover => ?_⟩
    rcases (h.bus.waited thread call hpc).bus with ⟨_, spec, hspec⟩ | ⟨hposted, _⟩
    · refine hover call.id (-EAGAIN) (by simp) ⟨call.id, spec⟩ ?_ rfl
      simp [hflight, hspec]
    · simp [hsem] at hposted
  next => simp at htimeout

/-- In a run in which no wait for the end of a transaction times out, every call that has
returned is over. -/
theorem returned_calls_over {trace : List (ManagedSpi × ManagedStep)}
    (run : Run (step handshakeRxBuf) reset trace s) (intime : AllSteps InTime trace) :
    AllStates ReturnedOver trace s := by
  have invariant := run.invariant intime inv_reset (fun s a t hs hok hstep => inv_step hs hok hstep)
  exact invariant.imp (fun s hs => hs.returnedOver)

def runs (thread count : Nat) : List ManagedStep := List.replicate count (.run thread)

/-- Thread 0 reads a register of the sensor while thread 1 sends a command to the AVR. -/
def twoClients : List ManagedStep :=
  [.call 0 (.adns7530SpiTransceive 0x20000100#32 1#32 0x20000104#32 5#32),
    .call 1 (.avrTransceive 0x20000200#32 ⟨0x20000204#32, 1#32, 0#32, 0#32⟩)] ++
    runs 0 7 ++ runs 1 3 ++ [.spiIrq 0 0#8, .spiIrq 0 0#8] ++ runs 0 2 ++ runs 1 4 ++
    [.spiIrq 0 0x43#8, .spiIrq 0 0#8] ++ runs 1 2

theorem returned_calls_over_twoClients :
    ∃ (trace : List (ManagedSpi × ManagedStep)) (s : ManagedSpi),
      Run (step 0x20000000#32) reset trace s ∧ trace.map Prod.snd = twoClients.reverse ∧
      AllStates ReturnedOver trace s := by
  have replayed :
      (replay (guarded InTime (step 0x20000000#32)) reset twoClients).isSome = true := by
    decide +kernel
  obtain ⟨trace, s, run, intime, labels⟩ := exists_allowed_run replayed
  exact ⟨trace, s, run, labels, returned_calls_over run intime⟩

/-- A register read whose wait times out, and the END interrupt after its return, upon which
the callback starts the second transfer. -/
def lateInterrupt : List ManagedStep :=
  [.call 0 (.adns7530SpiTransceive 0x20000100#32 1#32 0x20000104#32 5#32)] ++ runs 0 7 ++
    [.timeout 0, .run 0, .spiIrq 0 0#8]

/-- A second read is waiting when the second transfer of the first one ends. -/
def staleGive : List ManagedStep :=
  [.call 1 (.adns7530SpiTransceive 0x20000200#32 2#32 0#32 0#32)] ++ runs 1 7 ++
    [.spiIrq 0 0#8] ++ runs 1 2

theorem calls_not_over_lateInterrupt :
    (∃ (trace : List (ManagedSpi × ManagedStep)) (s : ManagedSpi),
      Run (step 0x20000000#32) reset trace s ∧ trace.map Prod.snd = lateInterrupt.reverse ∧
      (0, -EAGAIN) ∈ s.returned ∧ ∃ transfer ∈ s.spi.inFlight, transfer.call = 0) ∧
    ∃ (trace : List (ManagedSpi × ManagedStep)) (s : ManagedSpi),
      Run (step 0x20000000#32) reset trace s ∧
      trace.map Prod.snd = (lateInterrupt ++ staleGive).reverse ∧
      (1, 0) ∈ s.returned ∧ ∃ transfer ∈ s.spi.inFlight, transfer.call = 1 := by
  constructor
  · obtain ⟨trace, s, run, labels, hs⟩ := exists_run_of_replay
      (p := fun (s : ManagedSpi) => decide ((0, -EAGAIN) ∈ s.returned) &&
        decide (∃ transfer ∈ s.spi.inFlight, transfer.call = 0))
      (show (replay (step 0x20000000#32) reset lateInterrupt).any _ = true by decide +kernel)
    simp only [Bool.and_eq_true, decide_eq_true_eq] at hs
    exact ⟨trace, s, run, labels, hs⟩
  · obtain ⟨trace, s, run, labels, hs⟩ := exists_run_of_replay
      (p := fun (s : ManagedSpi) => decide ((1, 0) ∈ s.returned) &&
        decide (∃ transfer ∈ s.spi.inFlight, transfer.call = 1))
      (show (replay (step 0x20000000#32) reset (lateInterrupt ++ staleGive)).any _ = true by
        decide +kernel)
    simp only [Bool.and_eq_true, decide_eq_true_eq] at hs
    exact ⟨trace, s, run, labels, hs⟩

end ManagedSpi

end MyMouse
