import MyMouse.FileFraming
import MyMouse.Run

namespace MyMouse

namespace MouseConnect

open Runs

/-- Where the main thread is in `pull`; `seen` has left the loop over `rx`, and `cleared` has
reset it and not yet read the value. -/
inductive PullPc
  | outside
  | spinning
  | seen
  | cleared
  deriving DecidableEq

/-- `rx` and the value of the characteristic, with what the callback was called with and what
`pull` has returned. -/
structure Handover where
  value : Option Data
  rx : Bool
  pc : PullPc
  delivered : List (Option Data)
  returned : List (Option Data)
  deriving DecidableEq

/-- The characteristic has its new value when `didUpdateValueFor` is called on the Bluetooth
queue; the other steps are those of `pull` on the main thread. -/
inductive HandoverStep
  | didUpdateValueFor (data : Data)
  | call
  | spin
  | clear
  | read
  deriving DecidableEq

namespace Handover

def start : Handover :=
  { value := none, rx := false, pc := .outside, delivered := [], returned := [] }

/-- The callback: `rx = error == nil`. -/
def didUpdateValueFor (error : Bool) (s : Handover) : Handover :=
  { s with rx := !error }

def step (s : Handover) : HandoverStep → Option Handover
  | .didUpdateValueFor data =>
    some { s.didUpdateValueFor false with
      value := some data, delivered := s.delivered ++ [some data] }
  | .call => if s.pc = .outside then some { s with pc := .spinning } else none
  | .spin =>
    if s.pc = .spinning then some { s with pc := if s.rx then .seen else .spinning } else none
  | .clear => if s.pc = .seen then some { s with rx := false, pc := .cleared } else none
  | .read =>
    if s.pc = .cleared then
      some { s with pc := .outside, returned := s.returned ++ [s.value] }
    else none

/-- What `pull` returns from here on if nothing more is delivered. -/
def toReturn (s : Handover) : List (Option Data) :=
  match s.pc with
  | .outside | .spinning => if s.rx then [s.value] else []
  | .seen => [s.value]
  | .cleared => s.value :: if s.rx then [s.value] else []

/-- Every value delivered has been returned or is still returned, in order and once. -/
def NoneLost (s : Handover) : Prop :=
  s.returned ++ s.toReturn = s.delivered

/-- A value comes while none is being handed over, or it is the one that `pull`, having reset
`rx`, is about to read. -/
def InTime (s : Handover) : HandoverStep → Prop
  | .didUpdateValueFor data =>
    s.rx = false ∧ s.pc ≠ .seen ∧ (s.pc = .cleared → s.value = some data)
  | _ => True

instance (s : Handover) (a : HandoverStep) : Decidable (s.InTime a) :=
  match a with
  | .didUpdateValueFor _ => inferInstanceAs (Decidable (_ ∧ _))
  | .call => inferInstanceAs (Decidable True)
  | .spin => inferInstanceAs (Decidable True)
  | .clear => inferInstanceAs (Decidable True)
  | .read => inferInstanceAs (Decidable True)

variable {s t : Handover} {a : HandoverStep} {trace : List (Handover × HandoverStep)}

/-- The steps of `pull` only move a value from what is still returned to what has been. -/
theorem pull_step (h : s.step a = some t) (ha : ∀ data, a ≠ .didUpdateValueFor data) :
    t.returned ++ t.toReturn = s.returned ++ s.toReturn ∧ t.delivered = s.delivered := by
  cases a with
  | didUpdateValueFor data => exact absurd rfl (ha data)
  | call =>
    simp only [step] at h
    split at h
    next hpc =>
      cases Option.some.inj h
      simp [toReturn, hpc]
    next => simp at h
  | spin =>
    simp only [step] at h
    split at h
    next hpc =>
      cases Option.some.inj h
      cases hrx : s.rx with
      | false => simp [toReturn, hpc, hrx]
      | true => simp [toReturn, hpc, hrx]
    next => simp at h
  | clear =>
    simp only [step] at h
    split at h
    next hpc =>
      cases Option.some.inj h
      simp [toReturn, hpc]
    next => simp at h
  | read =>
    simp only [step] at h
    split at h
    next hpc =>
      cases Option.some.inj h
      simp [toReturn, hpc]
    next => simp at h

theorem noneLost_deliver {data : Data} (lossless : s.NoneLost)
    (h : s.step (.didUpdateValueFor data) = some t) :
    t.NoneLost ↔ s.InTime (.didUpdateValueFor data) := by
  cases Option.some.inj h
  have hsplit : s.delivered ++ [some data] = s.returned ++ (s.toReturn ++ [some data]) := by
    rw [← List.append_assoc, lossless]
  simp only [NoneLost, didUpdateValueFor, InTime, hsplit, List.append_cancel_left_eq]
  cases hpc : s.pc with
  | outside => cases hrx : s.rx <;> simp [toReturn, hpc, hrx]
  | spinning => cases hrx : s.rx <;> simp [toReturn, hpc, hrx]
  | seen => simp [toReturn, hpc]
  | cleared => cases hrx : s.rx <;> simp [toReturn, hpc, hrx, eq_comm]

theorem noneLost_step (lossless : s.NoneLost) (h : s.step a = some t) :
    t.NoneLost ↔ s.InTime a := by
  by_cases ha : ∀ data, a ≠ .didUpdateValueFor data
  · obtain ⟨hreturn, hdelivered⟩ := pull_step h ha
    have hkept : t.NoneLost := by
      unfold NoneLost
      rw [hreturn, hdelivered]
      exact lossless
    have hfree : s.InTime a := by
      cases a with
      | didUpdateValueFor data => exact absurd rfl (ha data)
      | call | spin | clear | read => exact trivial
    exact iff_of_true hkept hfree
  · obtain ⟨data, hdata⟩ := not_forall.mp ha
    cases not_not.mp hdata
    exact noneLost_deliver lossless h

/-- While `pull` waits for `rx`, all that was delivered has been returned. -/
theorem NoneLost.settled (lossless : s.NoneLost) (waits : s.pc = .spinning) (hrx : s.rx = false) :
    s.returned = s.delivered := by
  have hnothing : s.toReturn = [] := by simp [toReturn, waits, hrx]
  unfold NoneLost at lossless
  rwa [hnothing, List.append_nil] at lossless

/-- In a run no value is lost or returned twice exactly if each comes in time. -/
theorem noneLost_iff (run : Run step start trace s) :
    AllStates NoneLost trace s ↔ AllSteps InTime trace := by
  apply run.allStates_iff_allSteps
  · rfl
  · intro s a t lossless h
    exact noneLost_step lossless h

/-- The first value comes before the call that returns it, the second while `pull` waits, and a
third while it waits again. -/
theorem noneLost_iff_one_by_one :
    ∃ trace s, Run step start trace s ∧ AllStates NoneLost trace s ∧
      trace.map Prod.snd = [.read, .clear, .spin, .didUpdateValueFor [0x30#8], .spin, .call, .read,
        .clear, .spin, .didUpdateValueFor [0x20#8], .spin, .call, .read, .clear, .spin, .call,
        .didUpdateValueFor [0x72#8]] ∧
      s.returned = [some [0x72#8], some [0x20#8], some [0x30#8]] := by
  have hreplay : (replay (guarded InTime step) start
      [.didUpdateValueFor [0x72#8], .call, .spin, .clear, .read, .call, .spin,
        .didUpdateValueFor [0x20#8], .spin, .clear, .read, .call, .spin,
        .didUpdateValueFor [0x30#8], .spin, .clear, .read]).any
      (fun s => s.returned = [some [0x72#8], some [0x20#8], some [0x30#8]]) = true := by
    decide +kernel
  obtain ⟨trace, s, hrun, hlabels, hs⟩ := exists_run_of_replay hreplay
  obtain ⟨run, hok⟩ := hrun.of_guarded
  exact ⟨trace, s, run, (noneLost_iff run).mpr hok, hlabels, of_decide_eq_true hs⟩

/-- Two notifications before one call of `pull`: the first is lost. -/
theorem first_of_two_lost :
    ∃ trace s, Run step start trace s ∧
      s.delivered = [some [0x77#8], some [0x72#8]] ∧ s.returned = [some [0x72#8]] ∧
      s.pc = .spinning ∧ s.rx = false := by
  have hreplay : (replay step start
      [.didUpdateValueFor [0x77#8], .didUpdateValueFor [0x72#8], .call, .spin, .clear, .read,
        .call, .spin]).any
      (fun s => decide (s.delivered = [some [0x77#8], some [0x72#8]] ∧
        s.returned = [some [0x72#8]] ∧ s.pc = .spinning ∧ s.rx = false)) = true := by
    decide +kernel
  obtain ⟨trace, s, run, _, hlast⟩ := exists_run_of_replay hreplay
  exact ⟨trace, s, run, of_decide_eq_true hlast⟩

end Handover

end MouseConnect

end MyMouse
