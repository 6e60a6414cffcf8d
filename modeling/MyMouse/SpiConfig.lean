import MyMouse.Run
import MyMouse.Spi
import Mathlib.Logic.Function.Basic

namespace MyMouse

open Runs

inductive NrfSpimMode
  | mode0
  | mode1
  | mode2
  | mode3
  deriving DecidableEq

inductive NrfSpimBitOrder
  | msbFirst
  | lsbFirst
  deriving DecidableEq

inductive NrfSpimFrequency
  | freq125K
  | freq250K
  | freq500K
  | freq1M
  | freq2M
  | freq4M
  | freq8M
  deriving DecidableEq

/-- The mode, bit order and frequency registers of `NRF_SPIM0`. -/
structure Spim where
  opMode : NrfSpimMode
  bitOrder : NrfSpimBitOrder
  freq : NrfSpimFrequency
  deriving DecidableEq

structure SpiConfiguration extends Spim where
  isConst : Bool
  deriving DecidableEq

/-- Where a thread is in a call of spi.c; `ready` is outside of all of them. The wait for the
AVR's capacitors lies before `storeConfig`. -/
inductive SpiPc
  | ready
  | takeMutex
  | waiting
  | unlocked
  | submitWork
  | writeConfig (config : Nat)
  | writeFrequency (config : Nat)
  | storeConfig (config : Nat)
  deriving DecidableEq

/-- The statics of spi.c that its configuration cache rests on, the registers, `spi_mutex` with
the threads that wait for it, and where each thread is; a pointer to a configuration is its
number. Then what each thread has configured since it took the lock, and the transfers started,
each with what its thread had configured and the registers it began with. -/
structure SpiBus where
  spim : Spim
  prevConfig : Option Nat
  workScheduled : Bool
  mutexOwner : Option Nat
  lockCount : Nat
  waiting : List Nat
  threads : Nat → SpiPc
  configured : Nat → Option Nat
  transfers : List (Option Nat × Spim)

/-- A thread calls into spi.c, goes on with its call, or gives up waiting; `heir` is the waiting
thread that an unlock hands the mutex to, if there is one. -/
inductive SpiBusEvent
  | spiLock (thread : Nat)
  | spiUnlock (thread heir : Nat)
  | spiConfigure (thread config : Nat)
  | spiTransceive (thread : Nat) (spec : SpiTransferSpec)
  | resume (thread : Nat)
  | lockTimeout (thread : Nat)
  | disableSck
  deriving DecidableEq

def isSckInactiveHigh (mode : NrfSpimMode) : Bool := mode = .mode2 ∨ mode = .mode3

namespace SpiBus

def reset : SpiBus :=
  { spim := ⟨.mode0, .msbFirst, .freq250K⟩, prevConfig := none, workScheduled := false,
    mutexOwner := none, lockCount := 0, waiting := [], threads := fun _ => .ready,
    configured := fun _ => none, transfers := [] }

def goto (thread : Nat) (pc : SpiPc) (s : SpiBus) : SpiBus :=
  { s with threads := Function.update s.threads thread pc }

def setConfigured (thread : Nat) (config : Option Nat) (s : SpiBus) : SpiBus :=
  { s with configured := Function.update s.configured thread config }

/-- The work queue's thread runs it without being preempted. -/
def disableSck (s : SpiBus) : SpiBus :=
  { s with
    workScheduled := false
    spim := ⟨.mode0, .msbFirst, s.spim.freq⟩
    prevConfig := none }

def spiLock (thread : Nat) (s : SpiBus) : SpiBus :=
  { s with workScheduled := false }.goto thread .takeMutex

def kMutexLock (thread : Nat) (s : SpiBus) : SpiBus :=
  if s.mutexOwner = none then
    { s with mutexOwner := some thread, lockCount := 1 }.goto thread .ready
  else if s.mutexOwner = some thread then
    { s with lockCount := s.lockCount + 1 }.goto thread .ready
  else { s with waiting := s.waiting ++ [thread] }.goto thread .waiting

/-- `spi_unlock` up to the end of `k_mutex_unlock`. -/
def spiUnlock (thread heir : Nat) (s : SpiBus) : Option SpiBus :=
  if s.mutexOwner ≠ some thread then some s
  else if 1 < s.lockCount then
    some ({ s with lockCount := s.lockCount - 1 }.goto thread .unlocked)
  else if s.waiting = [] then
    some (({ s with mutexOwner := none, lockCount := 0 }.setConfigured thread none).goto thread
      .unlocked)
  else if heir ∈ s.waiting then
    some ((({ s with
      mutexOwner := some heir
      lockCount := 1
      waiting := s.waiting.erase heir }.setConfigured thread none).goto thread .unlocked).goto heir
        .ready)
  else none

/-- Its look at the configuration. -/
def readPrevConfig (config : Nat → SpiConfiguration) (thread : Nat) (s : SpiBus) : SpiBus :=
  if s.prevConfig.any (fun c => isSckInactiveHigh (config c).opMode) then s.goto thread .submitWork
  else s.goto thread .ready

/-- `spi_configure` up to its first write. -/
def spiConfigure (config : Nat → SpiConfiguration) (thread c : Nat) (s : SpiBus) : SpiBus :=
  if s.mutexOwner ≠ some thread then s
  else if (config c).isConst ∧ s.prevConfig = some c then s.setConfigured thread (some c)
  else (s.setConfigured thread none).goto thread (.writeConfig c)

def spiTransceive (thread : Nat) (spec : SpiTransferSpec) (s : SpiBus) : SpiBus :=
  if s.mutexOwner ≠ some thread then s
  else if (spec.txBuf ≠ 0#32 ∧ !isAddrInRam spec.txBuf) ∨
      (spec.rxBuf ≠ 0#32 ∧ !isAddrInRam spec.rxBuf) then s
  else { s with transfers := (s.configured thread, s.spim) :: s.transfers }

/-- The next statement of the call that a thread is in. -/
def resume (config : Nat → SpiConfiguration) (thread : Nat) (s : SpiBus) : Option SpiBus :=
  match s.threads thread with
  | .ready | .waiting => none
  | .takeMutex => some (s.kMutexLock thread)
  | .unlocked => some (s.readPrevConfig config thread)
  | .submitWork => some ({ s with workScheduled := true }.goto thread .ready)
  | .writeConfig c =>
    some ({ s with spim := ⟨(config c).opMode, (config c).bitOrder, s.spim.freq⟩ }.goto thread
      (.writeFrequency c))
  | .writeFrequency c =>
    some ({ s with spim := ⟨s.spim.opMode, s.spim.bitOrder, (config c).freq⟩ }.goto thread
      (.storeConfig c))
  | .storeConfig c =>
    some (({ s with prevConfig := some c }.setConfigured thread (some c)).goto thread .ready)

def step (config : Nat → SpiConfiguration) (s : SpiBus) : SpiBusEvent → Option SpiBus
  | .spiLock thread => if s.threads thread = .ready then some (s.spiLock thread) else none
  | .spiUnlock thread heir => if s.threads thread = .ready then s.spiUnlock thread heir else none
  | .spiConfigure thread c =>
    if s.threads thread = .ready then some (s.spiConfigure config thread c) else none
  | .spiTransceive thread spec =>
    if s.threads thread = .ready then some (s.spiTransceive thread spec) else none
  | .resume thread => s.resume config thread
  | .lockTimeout thread =>
    if s.threads thread = .waiting then
      some ({ s with waiting := s.waiting.erase thread }.goto thread .ready)
    else none
  | .disableSck => if s.workScheduled then some s.disableSck else none

end SpiBus

/-- Inside `spi_configure`, past its fast path. -/
def SpiPc.configuring : SpiPc → Bool
  | .writeConfig _ | .writeFrequency _ | .storeConfig _ => true
  | _ => false

/-- The configuration that is already in the registers, at least in part. -/
def SpiPc.writing : SpiPc → Option Nat
  | .writeFrequency c | .storeConfig c => some c
  | _ => none

namespace SpiBus

/-- The configuration that the thread which holds the lock relies on. -/
def inUse (s : SpiBus) : Option Nat :=
  s.mutexOwner.bind (fun thread => (s.threads thread).writing.or (s.configured thread))

/-- `disable_sck` finds no configuration in use that it would change. -/
def DisablesIdle (config : Nat → SpiConfiguration) (s : SpiBus) : SpiBusEvent → Prop
  | .disableSck => ∀ c ∈ s.inUse, (config c).opMode = .mode0 ∧ (config c).bitOrder = .msbFirst
  | _ => True

instance (config : Nat → SpiConfiguration) (s : SpiBus) :
    ∀ event, Decidable (DisablesIdle config s event)
  | .disableSck => inferInstanceAs (Decidable (∀ c ∈ s.inUse, _))
  | .spiLock _ => instDecidableTrue
  | .spiUnlock _ _ => instDecidableTrue
  | .spiConfigure _ _ => instDecidableTrue
  | .spiTransceive _ _ => instDecidableTrue
  | .resume _ => instDecidableTrue
  | .lockTimeout _ => instDecidableTrue

/-- Every transfer was started with the registers its thread had configured, and what a thread
has configured, or is about to have, is in the registers. -/
structure AsConfigured (config : Nat → SpiConfiguration) (s : SpiBus) : Prop where
  transfers : ∀ transfer ∈ s.transfers, ∀ c ∈ transfer.1, transfer.2 = (config c).toSpim
  configured : ∀ thread c, s.configured thread = some c → s.spim = (config c).toSpim
  writeFrequency : ∀ thread c, s.threads thread = .writeFrequency c →
    s.spim.opMode = (config c).opMode ∧ s.spim.bitOrder = (config c).bitOrder
  storeConfig : ∀ thread c, s.threads thread = .storeConfig c → s.spim = (config c).toSpim
  cached : (∀ thread, (s.threads thread).writing = none) →
    ∀ c, s.prevConfig = some c → s.spim = (config c).toSpim

/-- The cache does what configuring anew each time would do, and where `disable_sck` can run, no
thread holds the lock. -/
structure CacheSound (config : Nat → SpiConfiguration) (s : SpiBus) : Prop where
  asConfigured : AsConfigured config s
  unlocked : ∀ t, s.step config .disableSck = some t → s.mutexOwner = none

/-- `spi_unlock` schedules the work while no thread holds the lock, and `spi_lock` comes to the
mutex before the work it has cancelled is scheduled anew. -/
def WorkApart (s : SpiBus) : SpiBusEvent → Prop
  | .resume thread =>
    (s.threads thread = .submitWork → s.mutexOwner = none) ∧
      (s.threads thread = .takeMutex → s.workScheduled = false)
  | _ => True

instance (s : SpiBus) : ∀ event, Decidable (WorkApart s event)
  | .resume _ => inferInstanceAs (Decidable (_ ∧ _))
  | .spiLock _ => instDecidableTrue
  | .spiUnlock _ _ => instDecidableTrue
  | .spiConfigure _ _ => instDecidableTrue
  | .spiTransceive _ _ => instDecidableTrue
  | .lockTimeout _ => instDecidableTrue
  | .disableSck => instDecidableTrue

/-- Only the thread that holds the lock configures. -/
structure Exclusive (s : SpiBus) : Prop where
  owner : ∀ thread, (s.threads thread).configuring = true ∨ s.configured thread ≠ none →
    s.mutexOwner = some thread
  fresh : ∀ thread, (s.threads thread).configuring = true → s.configured thread = none

variable {config : Nat → SpiConfiguration} {s t : SpiBus} {thread other heir c : Nat} {pc : SpiPc}
  {event : SpiBusEvent}

theorem threads_goto : (s.goto thread pc).threads other =
    if other = thread then pc else s.threads other :=
  Function.update_apply _ _ _ _

theorem configured_set {value : Option Nat} : (s.setConfigured thread value).configured other =
    if other = thread then value else s.configured other :=
  Function.update_apply _ _ _ _

theorem writing_of_not_configuring (h : pc.configuring = false) : pc.writing = none := by
  cases pc with
  | writeFrequency c => cases h
  | storeConfig c => cases h
  | ready => rfl
  | takeMutex => rfl
  | waiting => rfl
  | unlocked => rfl
  | submitWork => rfl
  | writeConfig c => rfl

theorem exclusive_goto (h : Exclusive s) (hpc : pc.configuring = false) :
    Exclusive (s.goto thread pc) := by
  have hbefore : ∀ other, ((s.goto thread pc).threads other).configuring = true →
      (s.threads other).configuring = true := by
    intro other hconfiguring
    rw [threads_goto] at hconfiguring
    split at hconfiguring
    next =>
      rw [hpc] at hconfiguring
      cases hconfiguring
    next => exact hconfiguring
  constructor
  · exact fun other hbusy => h.owner other (hbusy.imp_left (hbefore other))
  · exact fun other hconfiguring => h.fresh other (hbefore other hconfiguring)

theorem exclusive_configured (h : Exclusive s) (howner : s.mutexOwner = some thread)
    (hready : (s.threads thread).configuring = false) (value : Option Nat) :
    Exclusive (s.setConfigured thread value) := by
  constructor
  · intro other hbusy
    by_cases heq : other = thread
    · rw [heq]
      exact howner
    · rw [configured_set, if_neg heq] at hbusy
      exact h.owner other hbusy
  · intro other hconfiguring
    have hne : other ≠ thread := by
      intro heq
      rw [heq] at hconfiguring
      change (s.threads thread).configuring = true at hconfiguring
      rw [hready] at hconfiguring
      cases hconfiguring
    rw [configured_set, if_neg hne]
    exact h.fresh other hconfiguring

/-- While no thread configures or has configured, the mutex may change hands. -/
theorem exclusive_owner (hidle : ∀ other, (s.threads other).configuring = false ∧
    s.configured other = none) : Exclusive s := by
  constructor
  · intro other hbusy
    obtain ⟨hpc, hnone⟩ := hidle other
    rw [hpc, hnone] at hbusy
    simp at hbusy
  · exact fun other _ => (hidle other).2

theorem idle_of_not_owner (h : Exclusive s) (howner : s.mutexOwner ≠ some other) :
    (s.threads other).configuring = false ∧ s.configured other = none := by
  constructor
  · rw [← Bool.not_eq_true]
    exact fun hpc => howner (h.owner other (.inl hpc))
  · rw [← not_ne_iff]
    exact fun hsome => howner (h.owner other (.inr hsome))

theorem exclusive_lock (h : Exclusive s) : Exclusive (s.kMutexLock thread) := by
  unfold kMutexLock
  split
  next hfree =>
    have hidle : ∀ other, (s.threads other).configuring = false ∧ s.configured other = none := by
      intro other
      refine idle_of_not_owner h ?_
      rw [hfree]
      exact (Option.some_ne_none other).symm
    exact exclusive_goto (exclusive_owner hidle) rfl
  next =>
    split
    next => exact exclusive_goto ⟨h.owner, h.fresh⟩ rfl
    next => exact exclusive_goto ⟨h.owner, h.fresh⟩ rfl

theorem exclusive_unlock (h : Exclusive s) (hready : s.threads thread = .ready)
    (hunlock : s.spiUnlock thread heir = some t) : Exclusive t := by
  unfold spiUnlock at hunlock
  split at hunlock
  next =>
    cases Option.some.inj hunlock
    exact h
  next howner =>
    rw [not_not] at howner
    have hidle : ∀ other, (s.threads other).configuring = false ∧
        (s.setConfigured thread none).configured other = none := by
      intro other
      by_cases heq : other = thread
      · rw [configured_set, if_pos heq, heq, hready]
        exact ⟨rfl, rfl⟩
      · rw [configured_set, if_neg heq]
        refine idle_of_not_owner h ?_
        rw [howner]
        exact fun hsame => heq (Option.some.inj hsame).symm
    split at hunlock
    next =>
      cases Option.some.inj hunlock
      exact exclusive_goto ⟨h.owner, h.fresh⟩ rfl
    next =>
      split at hunlock
      next =>
        cases Option.some.inj hunlock
        exact exclusive_goto (exclusive_owner hidle) rfl
      next =>
        split at hunlock
        next =>
          cases Option.some.inj hunlock
          exact exclusive_goto (exclusive_goto (exclusive_owner hidle) rfl) rfl
        next => simp at hunlock

theorem exclusive_configure (h : Exclusive s) (hready : s.threads thread = .ready) :
    Exclusive (s.spiConfigure config thread c) := by
  have hidle : (s.threads thread).configuring = false := by rw [hready]; rfl
  unfold spiConfigure
  split
  next => exact h
  next howner =>
    rw [not_not] at howner
    split
    next => exact exclusive_configured h howner hidle (some c)
    next =>
      have hnone := exclusive_configured h howner hidle none
      constructor
      · intro other hbusy
        by_cases heq : other = thread
        · rw [heq]
          exact howner
        · rw [threads_goto, if_neg heq] at hbusy
          exact hnone.owner other hbusy
      · intro other hconfiguring
        by_cases heq : other = thread
        · exact configured_set.trans (if_pos heq)
        · rw [threads_goto, if_neg heq] at hconfiguring
          exact hnone.fresh other hconfiguring

/-- A thread that goes on inside `spi_configure` keeps the lock. -/
theorem exclusive_advance (h : Exclusive s) (hnow : (s.threads thread).configuring = true) :
    Exclusive (s.goto thread pc) := by
  constructor
  · intro other hbusy
    by_cases heq : other = thread
    · rw [heq]
      exact h.owner thread (.inl hnow)
    · rw [threads_goto, if_neg heq] at hbusy
      exact h.owner other hbusy
  · intro other hconfiguring
    by_cases heq : other = thread
    · rw [heq]
      exact h.fresh thread hnow
    · rw [threads_goto, if_neg heq] at hconfiguring
      exact h.fresh other hconfiguring

theorem exclusive_resume (h : Exclusive s) (hresume : s.resume config thread = some t) :
    Exclusive t := by
  unfold resume at hresume
  split at hresume
  next => cases hresume
  next => cases hresume
  next =>
    cases Option.some.inj hresume
    exact exclusive_lock h
  next =>
    cases Option.some.inj hresume
    unfold readPrevConfig
    split
    next => exact exclusive_goto h rfl
    next => exact exclusive_goto h rfl
  next =>
    cases Option.some.inj hresume
    exact exclusive_goto ⟨h.owner, h.fresh⟩ rfl
  next c hpc =>
    cases Option.some.inj hresume
    have hnow : (s.threads thread).configuring = true := by rw [hpc]; rfl
    exact exclusive_advance ⟨h.owner, h.fresh⟩ hnow
  next c hpc =>
    cases Option.some.inj hresume
    have hnow : (s.threads thread).configuring = true := by rw [hpc]; rfl
    exact exclusive_advance ⟨h.owner, h.fresh⟩ hnow
  next c hpc =>
    cases Option.some.inj hresume
    have hnow : (s.threads thread).configuring = true := by rw [hpc]; rfl
    have hready : Exclusive (s.goto thread .ready) := exclusive_goto h rfl
    have hidle : ((s.goto thread .ready).threads thread).configuring = false := by
      rw [threads_goto, if_pos rfl]
      rfl
    have hset := exclusive_configured hready (h.owner thread (.inl hnow)) hidle (some c)
    exact ⟨hset.owner, hset.fresh⟩

theorem exclusive_step (h : Exclusive s) (hstep : s.step config event = some t) : Exclusive t := by
  cases event with
  | spiLock thread =>
    simp only [step] at hstep
    split at hstep
    next =>
      cases Option.some.inj hstep
      exact exclusive_goto ⟨h.owner, h.fresh⟩ rfl
    next => simp at hstep
  | spiUnlock thread heir =>
    simp only [step] at hstep
    split at hstep
    next hready => exact exclusive_unlock h hready hstep
    next => simp at hstep
  | spiConfigure thread c =>
    simp only [step] at hstep
    split at hstep
    next hready =>
      cases Option.some.inj hstep
      exact exclusive_configure h hready
    next => simp at hstep
  | spiTransceive thread spec =>
    simp only [step] at hstep
    split at hstep
    next =>
      cases Option.some.inj hstep
      unfold spiTransceive
      split
      next => exact h
      next =>
        split
        next => exact h
        next => exact ⟨h.owner, h.fresh⟩
    next => simp at hstep
  | resume thread => exact exclusive_resume h hstep
  | lockTimeout thread =>
    simp only [step] at hstep
    split at hstep
    next =>
      cases Option.some.inj hstep
      exact exclusive_goto ⟨h.owner, h.fresh⟩ rfl
    next => simp at hstep
  | disableSck =>
    simp only [step] at hstep
    split at hstep
    next =>
      cases Option.some.inj hstep
      exact ⟨h.owner, h.fresh⟩
    next => simp at hstep

/-- What leaves the registers and the cache alone, and no thread further in its writes. -/
structure Untouched (s t : SpiBus) : Prop where
  spim : t.spim = s.spim
  prevConfig : t.prevConfig = s.prevConfig
  transfers : t.transfers = s.transfers
  configured : ∀ thread c, t.configured thread = some c → s.configured thread = some c
  threads : ∀ thread, t.threads thread = s.threads thread ∨
    ((s.threads thread).writing = none ∧ (t.threads thread).writing = none)

theorem Untouched.trans {u : SpiBus} (first : Untouched s t) (second : Untouched t u) :
    Untouched s u := by
  refine ⟨second.spim.trans first.spim, second.prevConfig.trans first.prevConfig,
    second.transfers.trans first.transfers, ?_, ?_⟩
  · exact fun thread c hsome => first.configured thread c (second.configured thread c hsome)
  · intro thread
    rcases second.threads thread with heq | ⟨hbefore, hafter⟩
    · rw [heq]
      exact first.threads thread
    · rcases first.threads thread with heq | ⟨hstart, -⟩
      · rw [heq] at hbefore
        exact .inr ⟨hbefore, hafter⟩
      · exact .inr ⟨hstart, hafter⟩

theorem untouched_goto (hbefore : (s.threads thread).writing = none) (hafter : pc.writing = none) :
    Untouched s (s.goto thread pc) := by
  refine ⟨rfl, rfl, rfl, fun _ _ hsome => hsome, ?_⟩
  intro other
  rw [threads_goto]
  split
  next heq =>
    rw [heq]
    exact .inr ⟨hbefore, hafter⟩
  next => exact .inl rfl

theorem untouched_cleared : Untouched s (s.setConfigured thread none) := by
  refine ⟨rfl, rfl, rfl, ?_, fun _ => .inl rfl⟩
  intro other c hsome
  rw [configured_set] at hsome
  split at hsome
  next => cases hsome
  next => exact hsome

theorem Untouched.asConfigured (h : Untouched s t) (has : AsConfigured config s) :
    AsConfigured config t := by
  have hpc : ∀ thread pc, pc.writing ≠ none → t.threads thread = pc → s.threads thread = pc := by
    intro thread pc hwriting hthread
    rcases h.threads thread with heq | ⟨-, hafter⟩
    · rw [← heq, hthread]
    · rw [hthread] at hafter
      exact (hwriting hafter).elim
  refine ⟨?_, ?_, ?_, ?_, ?_⟩
  · rw [h.transfers]
    exact has.transfers
  · intro thread c hsome
    rw [h.spim]
    exact has.configured thread c (h.configured thread c hsome)
  · intro thread c hthread
    rw [h.spim]
    exact has.writeFrequency thread c (hpc thread _ (Option.some_ne_none c) hthread)
  · intro thread c hthread
    rw [h.spim]
    exact has.storeConfig thread c (hpc thread _ (Option.some_ne_none c) hthread)
  · intro hnone c hprev
    rw [h.spim]
    rw [h.prevConfig] at hprev
    refine has.cached ?_ c hprev
    intro thread
    rcases h.threads thread with heq | ⟨hbefore, -⟩
    · rw [← heq]
      exact hnone thread
    · exact hbefore

/-- Handing the mutex around and scheduling the work. -/
theorem untouched_mutex (mutexOwner : Option Nat) (lockCount : Nat) (waiting : List Nat)
    (workScheduled : Bool) :
    Untouched s { s with
      mutexOwner := mutexOwner
      lockCount := lockCount
      waiting := waiting
      workScheduled := workScheduled } :=
  ⟨rfl, rfl, rfl, fun _ _ hsome => hsome, fun _ => .inl rfl⟩

theorem untouched_lock (hpc : (s.threads thread).writing = none) :
    Untouched s (s.kMutexLock thread) := by
  unfold kMutexLock
  split
  next => exact (untouched_mutex _ _ _ _).trans (untouched_goto hpc rfl)
  next =>
    split
    next => exact (untouched_mutex _ _ _ _).trans (untouched_goto hpc rfl)
    next => exact (untouched_mutex _ _ _ _).trans (untouched_goto hpc rfl)

theorem untouched_unlock (h : Exclusive s) (hready : s.threads thread = .ready)
    (hunlock : s.spiUnlock thread heir = some t) : Untouched s t := by
  have hpc : (s.threads thread).writing = none := by rw [hready]; rfl
  unfold spiUnlock at hunlock
  split at hunlock
  next =>
    cases Option.some.inj hunlock
    exact untouched_mutex _ _ _ _
  next howner =>
    rw [not_not] at howner
    split at hunlock
    next =>
      cases Option.some.inj hunlock
      exact (untouched_mutex _ _ _ _).trans (untouched_goto hpc rfl)
    next =>
      split at hunlock
      next =>
        cases Option.some.inj hunlock
        exact ((untouched_mutex _ _ _ _).trans untouched_cleared).trans (untouched_goto hpc rfl)
      next =>
        split at hunlock
        next =>
          cases Option.some.inj hunlock
          refine (((untouched_mutex _ _ _ _).trans untouched_cleared).trans
            (untouched_goto hpc rfl)).trans (untouched_goto ?_ rfl)
          rw [threads_goto]
          split
          next => rfl
          next hne =>
            refine writing_of_not_configuring (idle_of_not_owner h ?_).1
            rw [howner]
            exact fun hsame => hne (Option.some.inj hsame).symm
        next => simp at hunlock

theorem writing_of_other (h : Exclusive s) (howner : s.mutexOwner = some thread)
    (hne : other ≠ thread) : (s.threads other).writing = none ∧ s.configured other = none := by
  have hidle := @idle_of_not_owner s other h (by
    rw [howner]
    exact fun hsame => hne (Option.some.inj hsame).symm)
  exact ⟨writing_of_not_configuring hidle.1, hidle.2⟩

/-- The fast path relies on the cache. -/
theorem asConfigured_configure (h : Exclusive s) (hready : s.threads thread = .ready)
    (has : AsConfigured config s) : AsConfigured config (s.spiConfigure config thread c) := by
  have hpc : (s.threads thread).writing = none := by rw [hready]; rfl
  unfold spiConfigure
  split
  next => exact has
  next howner =>
    rw [not_not] at howner
    split
    next hcached =>
      have hnone : ∀ other, (s.threads other).writing = none := by
        intro other
        by_cases heq : other = thread
        · rw [heq]
          exact hpc
        · exact (writing_of_other h howner heq).1
      refine ⟨has.transfers, ?_, has.writeFrequency, has.storeConfig, has.cached⟩
      intro other d hsome
      rw [configured_set] at hsome
      split at hsome
      next =>
        cases Option.some.inj hsome
        exact has.cached hnone c hcached.2
      next => exact has.configured other d hsome
    next => exact (untouched_cleared.trans (untouched_goto hpc rfl)).asConfigured has

theorem asConfigured_transceive {spec : SpiTransferSpec} (has : AsConfigured config s) :
    AsConfigured config (s.spiTransceive thread spec) := by
  unfold spiTransceive
  split
  next => exact has
  next =>
    split
    next => exact has
    next =>
      refine ⟨?_, has.configured, has.writeFrequency, has.storeConfig, has.cached⟩
      intro transfer hmem c hc
      rcases List.mem_cons.mp hmem with hnew | hold
      · rw [hnew] at hc ⊢
        exact has.configured thread c hc
      · exact has.transfers transfer hold c hc

/-- A write of the thread that configures: what it has written is all that is in use. -/
theorem asConfigured_write {spim : Spim} (h : Exclusive s) (has : AsConfigured config s)
    (hnow : (s.threads thread).configuring = true) (hwriting : pc.writing ≠ none)
    (hfrequency : ∀ d, pc = .writeFrequency d →
      spim.opMode = (config d).opMode ∧ spim.bitOrder = (config d).bitOrder)
    (hstore : ∀ d, pc = .storeConfig d → spim = (config d).toSpim) :
    AsConfigured config ({ s with spim := spim }.goto thread pc) := by
  have howner := h.owner thread (.inl hnow)
  have hself : ({ s with spim := spim }.goto thread pc).threads thread = pc := by
    rw [threads_goto, if_pos rfl]
  have hothers : ∀ other, other ≠ thread →
      (({ s with spim := spim }.goto thread pc).threads other).writing = none := by
    intro other hne
    rw [threads_goto, if_neg hne]
    exact (writing_of_other h howner hne).1
  refine ⟨has.transfers, ?_, ?_, ?_, ?_⟩
  · intro other c hsome
    change s.configured other = some c at hsome
    by_cases heq : other = thread
    · rw [heq, h.fresh thread hnow] at hsome
      cases hsome
    · rw [(writing_of_other h howner heq).2] at hsome
      cases hsome
  · intro other c hpc
    by_cases heq : other = thread
    · rw [heq, hself] at hpc
      exact hfrequency c hpc
    · have hnone := hothers other heq
      rw [hpc] at hnone
      cases hnone
  · intro other c hpc
    by_cases heq : other = thread
    · rw [heq, hself] at hpc
      exact hstore c hpc
    · have hnone := hothers other heq
      rw [hpc] at hnone
      cases hnone
  · intro hnone
    have hcontra := hnone thread
    rw [hself] at hcontra
    exact (hwriting hcontra).elim

theorem asConfigured_store (h : Exclusive s) (has : AsConfigured config s)
    (hpc : s.threads thread = .storeConfig c) :
    AsConfigured config
      (({ s with prevConfig := some c }.setConfigured thread (some c)).goto thread .ready) := by
  have hspim := has.storeConfig thread c hpc
  have hnow : (s.threads thread).configuring = true := by rw [hpc]; rfl
  have howner := h.owner thread (.inl hnow)
  have hothers : ∀ other d, ((({ s with prevConfig := some c }.setConfigured thread
      (some c)).goto thread .ready).threads other).writing ≠ some d := by
    intro other d
    rw [threads_goto]
    split
    next => exact (Option.some_ne_none d).symm
    next hne =>
      have hnone := (writing_of_other h howner hne).1
      change (s.threads other).writing ≠ some d
      rw [hnone]
      exact (Option.some_ne_none d).symm
  refine ⟨has.transfers, ?_, ?_, ?_, ?_⟩
  · intro other d hsome
    change (s.setConfigured thread (some c)).configured other = some d at hsome
    rw [configured_set] at hsome
    split at hsome
    next =>
      cases Option.some.inj hsome
      exact hspim
    next => exact has.configured other d hsome
  · intro other d hthread
    exact (hothers other d (congrArg SpiPc.writing hthread)).elim
  · intro other d hthread
    exact (hothers other d (congrArg SpiPc.writing hthread)).elim
  · intro _ d hprev
    cases Option.some.inj hprev
    exact hspim

theorem asConfigured_resume (h : Exclusive s) (has : AsConfigured config s)
    (hresume : s.resume config thread = some t) : AsConfigured config t := by
  unfold resume at hresume
  split at hresume
  next => cases hresume
  next => cases hresume
  next hpc =>
    cases Option.some.inj hresume
    have hwriting : (s.threads thread).writing = none := by rw [hpc]; rfl
    exact (untouched_lock hwriting).asConfigured has
  next hpc =>
    cases Option.some.inj hresume
    have hwriting : (s.threads thread).writing = none := by rw [hpc]; rfl
    unfold readPrevConfig
    split
    next => exact (untouched_goto hwriting rfl).asConfigured has
    next => exact (untouched_goto hwriting rfl).asConfigured has
  next hpc =>
    cases Option.some.inj hresume
    have hwriting : (s.threads thread).writing = none := by rw [hpc]; rfl
    refine Untouched.asConfigured ?_ has
    exact (untouched_mutex _ _ _ _).trans (untouched_goto hwriting rfl)
  next c hpc =>
    cases Option.some.inj hresume
    have hnow : (s.threads thread).configuring = true := by rw [hpc]; rfl
    refine asConfigured_write h has hnow (Option.some_ne_none c) ?_ ?_
    · intro d hd
      cases hd
      exact ⟨rfl, rfl⟩
    · intro d hd
      cases hd
  next c hpc =>
    cases Option.some.inj hresume
    have hnow : (s.threads thread).configuring = true := by rw [hpc]; rfl
    refine asConfigured_write h has hnow (Option.some_ne_none c) ?_ ?_
    · intro d hd
      cases hd
    · intro d hd
      cases hd
      obtain ⟨hmode, horder⟩ := has.writeFrequency thread c hpc
      rw [hmode, horder]
  next c hpc =>
    cases Option.some.inj hresume
    exact asConfigured_store h has hpc

theorem inUse_configured (h : Exclusive s) (hsome : s.configured thread = some c) :
    s.inUse = some c := by
  have howner := h.owner thread (.inr (by rw [hsome]; exact Option.some_ne_none c))
  have hwriting : (s.threads thread).writing = none := by
    refine writing_of_not_configuring ?_
    rw [← Bool.not_eq_true]
    intro hnow
    rw [h.fresh thread hnow] at hsome
    cases hsome
  unfold inUse
  rw [howner, Option.bind_some, hwriting, Option.none_or, hsome]

theorem inUse_writing (h : Exclusive s) (hnow : (s.threads thread).configuring = true)
    (hwriting : (s.threads thread).writing = some c) : s.inUse = some c := by
  unfold inUse
  rw [h.owner thread (.inl hnow), Option.bind_some, hwriting, Option.some_or]

theorem asConfigured_disable (h : Exclusive s) (has : AsConfigured config s) :
    AsConfigured config s.disableSck ↔ DisablesIdle config s .disableSck := by
  constructor
  · intro hafter c hc
    obtain ⟨thread, -, huse⟩ := Option.bind_eq_some_iff.mp hc
    rcases Option.or_eq_some_iff.mp huse with hwriting | ⟨-, hsome⟩
    · cases hpc : s.threads thread with
      | writeFrequency d =>
        rw [hpc] at hwriting
        cases Option.some.inj hwriting
        obtain ⟨hmode, horder⟩ := hafter.writeFrequency thread c hpc
        exact ⟨hmode.symm, horder.symm⟩
      | storeConfig d =>
        rw [hpc] at hwriting
        cases Option.some.inj hwriting
        have hspim := hafter.storeConfig thread c hpc
        exact ⟨(congrArg Spim.opMode hspim).symm, (congrArg Spim.bitOrder hspim).symm⟩
      | ready => rw [hpc] at hwriting; cases hwriting
      | takeMutex => rw [hpc] at hwriting; cases hwriting
      | waiting => rw [hpc] at hwriting; cases hwriting
      | unlocked => rw [hpc] at hwriting; cases hwriting
      | submitWork => rw [hpc] at hwriting; cases hwriting
      | writeConfig d => rw [hpc] at hwriting; cases hwriting
    · have hspim := hafter.configured thread c hsome
      exact ⟨(congrArg Spim.opMode hspim).symm, (congrArg Spim.bitOrder hspim).symm⟩
  · intro hidle
    have hkeep : ∀ c, s.inUse = some c → s.spim = (config c).toSpim →
        s.disableSck.spim = (config c).toSpim := by
      intro c huse hspim
      obtain ⟨hmode, horder⟩ := hidle c huse
      have hfreq := congrArg Spim.freq hspim
      change (⟨.mode0, .msbFirst, s.spim.freq⟩ : Spim) = _
      rw [hfreq, ← hmode, ← horder]
    refine ⟨has.transfers, ?_, ?_, ?_, ?_⟩
    · intro thread c hsome
      exact hkeep c (inUse_configured h hsome) (has.configured thread c hsome)
    · intro thread c hpc
      change s.threads thread = .writeFrequency c at hpc
      have huse := @inUse_writing s thread c h (by rw [hpc]; rfl) (by rw [hpc]; rfl)
      obtain ⟨hmode, horder⟩ := hidle c huse
      exact ⟨hmode.symm, horder.symm⟩
    · intro thread c hpc
      change s.threads thread = .storeConfig c at hpc
      have huse := @inUse_writing s thread c h (by rw [hpc]; rfl) (by rw [hpc]; rfl)
      exact hkeep c huse (has.storeConfig thread c hpc)
    · intro _ c hprev
      cases hprev

theorem asConfigured_step (h : Exclusive s) (has : AsConfigured config s)
    (hstep : s.step config event = some t) : AsConfigured config t ↔ DisablesIdle config s event := by
  cases event with
  | spiLock thread =>
    simp only [step] at hstep
    split at hstep
    next hready =>
      cases Option.some.inj hstep
      have hwriting : (s.threads thread).writing = none := by rw [hready]; rfl
      refine iff_of_true (Untouched.asConfigured ?_ has) trivial
      exact (untouched_mutex _ _ _ _).trans (untouched_goto hwriting rfl)
    next => simp at hstep
  | spiUnlock thread heir =>
    simp only [step] at hstep
    split at hstep
    next hready => exact iff_of_true ((untouched_unlock h hready hstep).asConfigured has) trivial
    next => simp at hstep
  | spiConfigure thread c =>
    simp only [step] at hstep
    split at hstep
    next hready =>
      cases Option.some.inj hstep
      exact iff_of_true (asConfigured_configure h hready has) trivial
    next => simp at hstep
  | spiTransceive thread spec =>
    simp only [step] at hstep
    split at hstep
    next =>
      cases Option.some.inj hstep
      exact iff_of_true (asConfigured_transceive has) trivial
    next => simp at hstep
  | resume thread => exact iff_of_true (asConfigured_resume h has hstep) trivial
  | lockTimeout thread =>
    simp only [step] at hstep
    split at hstep
    next hpc =>
      cases Option.some.inj hstep
      have hwriting : (s.threads thread).writing = none := by rw [hpc]; rfl
      refine iff_of_true (Untouched.asConfigured ?_ has) trivial
      exact (untouched_mutex _ _ _ _).trans (untouched_goto hwriting rfl)
    next => simp at hstep
  | disableSck =>
    simp only [step] at hstep
    split at hstep
    next =>
      cases Option.some.inj hstep
      exact asConfigured_disable h has
    next => simp at hstep

theorem exclusive_reset : Exclusive reset :=
  exclusive_owner (fun _ => ⟨rfl, rfl⟩)

theorem exclusive_run {trace : List (SpiBus × SpiBusEvent)} (run : Run (step config) reset trace s) :
    AllStates Exclusive trace s := by
  have allowed : AllSteps (fun (_ : SpiBus) (_ : SpiBusEvent) => True) trace := fun _ _ => trivial
  exact run.invariant allowed exclusive_reset (fun _ _ _ h _ hstep => exclusive_step h hstep)

theorem asConfigured_reset : AsConfigured config reset := by
  refine ⟨?_, ?_, ?_, ?_, ?_⟩
  · intro transfer hmem
    cases hmem
  · intro thread c hsome
    cases hsome
  · intro thread c hpc
    cases hpc
  · intro thread c hpc
    cases hpc
  · intro _ c hprev
    cases hprev

/-- Transfers are as configured exactly in the runs where `disable_sck` never finds a
configuration in use that it would change. -/
theorem run_asConfigured {trace : List (SpiBus × SpiBusEvent)} (run : Run (step config) reset trace s) :
    AllStates (AsConfigured config) trace s ↔ AllSteps (DisablesIdle config) trace :=
  run.allStates_iff_of_invariant (exclusive_run run) asConfigured_reset
    (fun _ _ _ h has hstep => asConfigured_step h has hstep)

theorem unlocked_iff : (∀ t, s.step config .disableSck = some t → s.mutexOwner = none) ↔
    (s.workScheduled = true → s.mutexOwner = none) := by
  simp only [step]
  split
  next hscheduled => exact ⟨fun h _ => h _ rfl, fun h _ _ => h hscheduled⟩
  next hnot => exact iff_of_true (fun _ hrun => nomatch hrun) (fun h => absurd h hnot)

/-- Giving up the mutex or handing it over leaves the work as it is. -/
theorem spiUnlock_work (hunlock : s.spiUnlock thread heir = some t) :
    t.workScheduled = s.workScheduled ∧ (s.mutexOwner = none → t.mutexOwner = none) := by
  unfold spiUnlock at hunlock
  split at hunlock
  next =>
    cases Option.some.inj hunlock
    exact ⟨rfl, id⟩
  next howner =>
    rw [not_not] at howner
    have hheld : s.mutexOwner = none → t.mutexOwner = none := by
      intro hfree
      rw [hfree] at howner
      cases howner
    refine ⟨?_, hheld⟩
    split at hunlock
    next => cases Option.some.inj hunlock; rfl
    next =>
      split at hunlock
      next => cases Option.some.inj hunlock; rfl
      next =>
        split at hunlock
        next => cases Option.some.inj hunlock; rfl
        next => simp at hunlock

theorem workApart_of_ne (hsubmit : s.threads thread ≠ .submitWork)
    (htake : s.threads thread ≠ .takeMutex) : WorkApart s (.resume thread) :=
  ⟨fun hpc => absurd hpc hsubmit, fun hpc => absurd hpc htake⟩

theorem unlocked_resume (hunlocked : s.workScheduled = true → s.mutexOwner = none)
    (hresume : s.resume config thread = some t) :
    (t.workScheduled = true → t.mutexOwner = none) ↔ WorkApart s (.resume thread) := by
  unfold resume at hresume
  cases hpc : s.threads thread with
  | ready | waiting =>
    rw [hpc] at hresume
    cases hresume
  | takeMutex =>
    rw [hpc] at hresume
    cases Option.some.inj hresume
    have hwork : (s.kMutexLock thread).workScheduled = s.workScheduled := by
      unfold kMutexLock
      split
      next => rfl
      next => split <;> rfl
    have hheld : (s.kMutexLock thread).mutexOwner ≠ none := by
      unfold kMutexLock
      split
      next => exact Option.some_ne_none thread
      next hnot =>
        split
        next => exact hnot
        next => exact hnot
    rw [hwork]
    simp [WorkApart, hheld, hpc]
  | submitWork =>
    rw [hpc] at hresume
    cases Option.some.inj hresume
    simp [WorkApart, goto, hpc]
  | unlocked =>
    rw [hpc] at hresume
    cases Option.some.inj hresume
    refine iff_of_true ?_ (workApart_of_ne (by simp [hpc]) (by simp [hpc]))
    unfold readPrevConfig
    split
    next => exact hunlocked
    next => exact hunlocked
  | writeConfig c | writeFrequency c | storeConfig c =>
    rw [hpc] at hresume
    cases Option.some.inj hresume
    exact iff_of_true hunlocked (workApart_of_ne (by simp [hpc]) (by simp [hpc]))

/-- Where the work is scheduled only while no thread holds the lock, only scheduling it and
taking the mutex can change that. -/
theorem unlocked_step (hunlocked : s.workScheduled = true → s.mutexOwner = none)
    (hstep : s.step config event = some t) :
    (t.workScheduled = true → t.mutexOwner = none) ↔ WorkApart s event := by
  cases event with
  | spiLock thread =>
    simp only [step] at hstep
    split at hstep
    next =>
      cases Option.some.inj hstep
      exact iff_of_true (fun hscheduled => nomatch hscheduled) trivial
    next => simp at hstep
  | spiUnlock thread heir =>
    simp only [step] at hstep
    split at hstep
    next =>
      obtain ⟨hwork, hfree⟩ := spiUnlock_work hstep
      refine iff_of_true ?_ trivial
      rw [hwork]
      exact fun hscheduled => hfree (hunlocked hscheduled)
    next => simp at hstep
  | spiConfigure thread c =>
    simp only [step] at hstep
    split at hstep
    next =>
      cases Option.some.inj hstep
      refine iff_of_true ?_ trivial
      unfold spiConfigure
      split
      next => exact hunlocked
      next =>
        split
        next => exact hunlocked
        next => exact hunlocked
    next => simp at hstep
  | spiTransceive thread spec =>
    simp only [step] at hstep
    split at hstep
    next =>
      cases Option.some.inj hstep
      refine iff_of_true ?_ trivial
      unfold spiTransceive
      split
      next => exact hunlocked
      next =>
        split
        next => exact hunlocked
        next => exact hunlocked
    next => simp at hstep
  | resume thread => exact unlocked_resume hunlocked hstep
  | lockTimeout thread =>
    simp only [step] at hstep
    split at hstep
    next =>
      cases Option.some.inj hstep
      exact iff_of_true hunlocked trivial
    next => simp at hstep
  | disableSck =>
    simp only [step] at hstep
    split at hstep
    next =>
      cases Option.some.inj hstep
      exact iff_of_true (fun hscheduled => nomatch hscheduled) trivial
    next => simp at hstep

/-- With the lock held by no thread no configuration is in use. -/
theorem CacheSound.disablesIdle (h : CacheSound config s) (hstep : s.step config event = some t) :
    DisablesIdle config s event := by
  cases event with
  | disableSck =>
    intro c hc
    have hnone : s.inUse = none := by
      unfold inUse
      rw [h.unlocked t hstep, Option.bind_none]
    rw [hnone] at hc
    cases hc
  | spiLock | spiUnlock | spiConfigure | spiTransceive | resume | lockTimeout => exact trivial

theorem cacheSound_step (h : Exclusive s) (sound : CacheSound config s)
    (hstep : s.step config event = some t) : CacheSound config t ↔ WorkApart s event := by
  have happlied := (asConfigured_step h sound.asConfigured hstep).mpr (sound.disablesIdle hstep)
  have hunlocked := unlocked_step (unlocked_iff.mp sound.unlocked) hstep
  constructor
  · exact fun after => hunlocked.mp (unlocked_iff.mp after.unlocked)
  · exact fun apart => ⟨happlied, unlocked_iff.mpr (hunlocked.mpr apart)⟩

theorem cacheSound_reset : CacheSound config reset :=
  ⟨asConfigured_reset, unlocked_iff.mpr (fun hscheduled => nomatch hscheduled)⟩

/-- The cache is sound and the work never runs under a held lock exactly in the runs where
`spi_unlock` and `spi_lock` keep the work apart from the lock. -/
theorem run_cacheSound {trace : List (SpiBus × SpiBusEvent)} (run : Run (step config) reset trace s) :
    AllStates (CacheSound config) trace s ↔ AllSteps WorkApart trace :=
  run.allStates_iff_of_invariant (exclusive_run run) cacheSound_reset
    (fun _ _ _ h sound hstep => cacheSound_step h sound hstep)

/-- One client, its clock inactive high as that of the AVR and of the optical sensor. -/
def mode3Config : Nat → SpiConfiguration :=
  fun _ => ⟨⟨.mode3, .msbFirst, .freq2M⟩, true⟩

def ramTransfer : SpiTransferSpec := ⟨0x20000000#32, 1#32, 0x20000000#32, 1#32⟩

/-- Thread 1 transfers and unlocks, the work disables the clock, thread 2 transfers. -/
def disabledBetween : List SpiBusEvent :=
  [.spiLock 1, .resume 1, .spiConfigure 1 0, .resume 1, .resume 1, .resume 1,
    .spiTransceive 1 ramTransfer, .spiUnlock 1 0, .resume 1, .resume 1, .disableSck, .spiLock 2,
    .resume 2, .spiConfigure 2 0, .resume 2, .resume 2, .resume 2, .spiTransceive 2 ramTransfer]

theorem run_cacheSound_disabledBetween :
    ∃ trace s, Run (step mode3Config) reset trace s ∧
      trace.map Prod.snd = disabledBetween.reverse ∧ AllStates (CacheSound mode3Config) trace s := by
  have hreplay : (replay (guarded WorkApart (step mode3Config)) reset
      disabledBetween).isSome = true := by
    decide +kernel
  obtain ⟨trace, s, run, hok, hlabels⟩ := exists_allowed_run hreplay
  exact ⟨trace, s, run, hlabels, (run_cacheSound run).mpr hok⟩

/-- Thread 2 cancels no work and waits for the mutex; thread 1 unlocks and schedules the work,
which runs while thread 2 holds the lock, between its `spi_configure` and its transfer. -/
def disabledUnderLock : List SpiBusEvent :=
  [.spiLock 1, .resume 1, .spiConfigure 1 0, .resume 1, .resume 1, .resume 1,
    .spiTransceive 1 ramTransfer, .spiLock 2, .resume 2, .spiUnlock 1 2, .resume 1, .resume 1,
    .spiConfigure 2 0, .disableSck, .spiTransceive 2 ramTransfer]

theorem wrong_mode_disabledUnderLock :
    ∃ trace s, Run (step mode3Config) reset trace s ∧
      trace.map Prod.snd = disabledUnderLock.reverse ∧ s.mutexOwner = some 2 ∧
      (some 0, ⟨.mode0, .msbFirst, .freq2M⟩) ∈ s.transfers ∧
      (mode3Config 0).toSpim = ⟨.mode3, .msbFirst, .freq2M⟩ := by
  have hreplay : (replay (step mode3Config) reset disabledUnderLock).any
      (fun s => decide (s.mutexOwner = some 2 ∧
        (some 0, ⟨.mode0, .msbFirst, .freq2M⟩) ∈ s.transfers)) = true := by
    decide +kernel
  obtain ⟨trace, s, run, hlabels, hwrong⟩ := exists_run_of_replay hreplay
  obtain ⟨howner, htransfer⟩ := of_decide_eq_true hwrong
  exact ⟨trace, s, run, hlabels, howner, htransfer, rfl⟩

end SpiBus

end MyMouse
