import MyMouse.HidReport
import MyMouse.Run

namespace MyMouse

open Runs

structure Encoder where
  delta : Int
  acc : Int
  deriving DecidableEq

/-- The wheel field is eight bits wide. -/
def hidSrcEncoderReportFiller (report : HidReport) (e : Encoder) : HidReport × Encoder :=
  ({ report with wheelDelta := BitVec.ofInt 8 e.delta }, { e with delta := 0 })

/-- The encoder after the callback, and whether it notifies the collector. -/
def hidSrcEncoderQdecDataCallback (value : Int) (e : Encoder) : Encoder × Bool :=
  let acc := e.acc + value
  let delta := acc.tdiv 2
  (⟨delta, acc.tmod 2⟩, delta ≠ 0)

/-- The encoder and the collector's report; `taken` is the sum of the deltas the filler has
taken and `turned` the sum of the values passed to the callback. -/
structure EncoderRun where
  encoder : Encoder
  report : HidReport
  taken : Int
  turned : Int
  deriving DecidableEq

inductive EncoderStep
  | qdecData (value : Int)
  | reportFiller
  deriving DecidableEq

namespace EncoderRun

def start : EncoderRun :=
  { encoder := ⟨0, 0⟩, report := .zero, taken := 0, turned := 0 }

def step (s : EncoderRun) : EncoderStep → Option EncoderRun
  | .qdecData value =>
    some { s with
      encoder := (hidSrcEncoderQdecDataCallback value s.encoder).1
      turned := s.turned + value }
  | .reportFiller =>
    let (report, encoder) := hidSrcEncoderReportFiller s.report s.encoder
    some { s with encoder := encoder, report := report, taken := s.taken + s.encoder.delta }

/-- No scroll step is lost or counted twice. -/
def Conserved (s : EncoderRun) : Prop :=
  2 * (s.taken + s.encoder.delta) + s.encoder.acc = s.turned

/-- A callback comes only when the filler has taken the delta of the one before. -/
def NonePending (s : EncoderRun) : EncoderStep → Prop
  | .qdecData _ => s.encoder.delta = 0
  | .reportFiller => True

instance (s : EncoderRun) : Decidable s.Conserved := inferInstanceAs (Decidable (_ = _))

instance (s : EncoderRun) (a : EncoderStep) : Decidable (NonePending s a) :=
  match a with
  | .qdecData _ => inferInstanceAs (Decidable (_ = _))
  | .reportFiller => inferInstanceAs (Decidable True)

variable {s t : EncoderRun}

theorem callback_split (value : Int) (e : Encoder) :
    2 * (hidSrcEncoderQdecDataCallback value e).1.delta +
      (hidSrcEncoderQdecDataCallback value e).1.acc = e.acc + value :=
  Int.mul_tdiv_add_tmod (e.acc + value) 2

theorem conserved_step_iff {a : EncoderStep} (h : s.Conserved) (hstep : step s a = some t) :
    t.Conserved ↔ NonePending s a := by
  unfold Conserved at h ⊢
  cases a with
  | qdecData value =>
    cases Option.some.inj hstep
    have hsplit := callback_split value s.encoder
    simp only [NonePending]
    constructor
    · intro hconserved
      omega
    · intro hdelta
      omega
  | reportFiller =>
    cases Option.some.inj hstep
    simp only [NonePending]
    constructor
    · intro _
      trivial
    · intro _
      omega

/-- Scrolling is conserved throughout a run exactly if no callback of it comes while a delta
is pending. -/
theorem conserved_iff {trace : List (EncoderRun × EncoderStep)} (run : Run step start trace s) :
    AllStates Conserved trace s ↔ AllSteps NonePending trace :=
  run.allStates_iff_allSteps rfl (fun _ _ _ h hstep => conserved_step_iff h hstep)

/-- Two clicks up and one down, with a change of direction in between. -/
def slowScroll : List EncoderStep :=
  [.qdecData 1, .qdecData 1, .reportFiller, .qdecData 3, .reportFiller, .qdecData (-3),
    .reportFiller, .qdecData 1]

theorem conserved_slowScroll :
    ∃ (trace : List (EncoderRun × EncoderStep)) (s : EncoderRun),
      Run step start trace s ∧ trace.map Prod.snd = slowScroll.reverse ∧
      AllStates Conserved trace s := by
  have replayed : (replay (guarded NonePending step) start slowScroll).isSome = true := by
    decide
  obtain ⟨trace, s, run, nonePending, labels⟩ := exists_allowed_run replayed
  exact ⟨trace, s, run, labels, (conserved_iff run).mpr nonePending⟩

/-- Three pulses of the encoder before the collector gets to its report. -/
def fastScroll : List EncoderStep :=
  [.qdecData 1, .qdecData 1, .qdecData 1, .reportFiller]

theorem scroll_lost_fastScroll :
    ∃ (trace : List (EncoderRun × EncoderStep)) (s : EncoderRun),
      Run step start trace s ∧ trace.map Prod.snd = fastScroll.reverse ∧
      s.taken = 0 ∧ s.encoder = ⟨0, 1⟩ ∧ s.turned = 3 ∧ ¬ s.Conserved := by
  obtain ⟨trace, s, run, labels, hs⟩ := exists_run_of_replay
    (p := fun (s : EncoderRun) => decide (s.taken = 0 ∧ s.encoder = ⟨0, 1⟩ ∧ s.turned = 3))
    (show (replay step start fastScroll).any _ = true by decide)
  obtain ⟨htaken, hencoder, hturned⟩ := of_decide_eq_true hs
  refine ⟨trace, s, run, labels, htaken, hencoder, hturned, ?_⟩
  unfold Conserved
  rw [htaken, hencoder, hturned]
  decide

end EncoderRun

end MyMouse
