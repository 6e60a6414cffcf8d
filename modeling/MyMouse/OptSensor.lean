import MyMouse.Adns7530
import MyMouse.HidReport

namespace MyMouse

structure OptSensorCall where
  read : BurstRead
  motPin : Bool
  report : HidReport

/-- The filled report, the driver's data after it, and whether the collector is notified. The
result of `sensor_sample_fetch` is not looked at. -/
def hidSrcOptSensorReportFiller (surfQualThreshold : Nat) (call : OptSensorCall)
    (data : Adns7530Data) : HidReport × Adns7530Data × Bool :=
  let data := (adns7530SampleFetch surfQualThreshold call.read data).2
  let value := (adns7530ChannelGet .posDx data 0).2
  let report := { call.report with xDelta := BitVec.ofInt 12 value }
  let value := (adns7530ChannelGet .posDy data value).2
  let report := { report with yDelta := BitVec.ofInt 12 (-value) }
  (report, data, !call.motPin)

def fillReports (surfQualThreshold : Nat) : List OptSensorCall → Adns7530Data → List HidReport
  | [], _ => []
  | call :: calls, data =>
    let (report, data, _) := hidSrcOptSensorReportFiller surfQualThreshold call data
    report :: fillReports surfQualThreshold calls data

/-- The y axis of the report points the other way. -/
def contribution (deltas : BitVec 12 × BitVec 12) : BitVec 12 × BitVec 12 :=
  (deltas.1, -deltas.2)

/-- The deltas of the last valid read, or `rest` when there is none. -/
def lastMotion (surfQualThreshold : Nat) (reads : List BurstRead) (rest : BitVec 12 × BitVec 12) :
    BitVec 12 × BitVec 12 :=
  (((reads.filter BurstRead.valid).getLast?).map (BurstRead.motion surfQualThreshold)).getD rest

/-- Before each read that is not valid, the last valid one shows no motion. -/
def RestsBeforeFaults (surfQualThreshold : Nat) (reads : List BurstRead)
    (rest : BitVec 12 × BitVec 12) : Prop :=
  ∀ before read after, reads = before ++ read :: after → read.valid = false →
    lastMotion surfQualThreshold before rest = (0#12, 0#12)

theorem contribution_injective {a b : BitVec 12 × BitVec 12} (h : contribution a = contribution b) :
    a = b := by
  obtain ⟨hx, hy⟩ := Prod.mk.inj h
  exact Prod.ext hx (BitVec.neg_inj.mp hy)

theorem filler_contribution (surfQualThreshold : Nat) (call : OptSensorCall) (data : Adns7530Data) :
    ((hidSrcOptSensorReportFiller surfQualThreshold call data).1.xDelta,
      (hidSrcOptSensorReportFiller surfQualThreshold call data).1.yDelta) =
    contribution (hidSrcOptSensorReportFiller surfQualThreshold call data).2.1.deltas := by
  unfold contribution Adns7530Data.deltas
  rw [← BitVec.ofInt_neg]
  rfl

theorem filler_deltas (surfQualThreshold : Nat) (call : OptSensorCall) (data : Adns7530Data) :
    (hidSrcOptSensorReportFiller surfQualThreshold call data).2.1.deltas =
      if call.read.valid then call.read.motion surfQualThreshold else data.deltas :=
  sampleFetch_deltas surfQualThreshold call.read data

theorem lastMotion_cons (surfQualThreshold : Nat) (read : BurstRead) (reads : List BurstRead)
    (rest : BitVec 12 × BitVec 12) :
    lastMotion surfQualThreshold (read :: reads) rest =
      lastMotion surfQualThreshold reads
        (if read.valid then read.motion surfQualThreshold else rest) := by
  unfold lastMotion
  cases hvalid : read.valid with
  | false => simp [hvalid]
  | true =>
    rw [List.filter_cons_of_pos hvalid, List.getLast?_cons]
    cases (reads.filter BurstRead.valid).getLast? <;> rfl

theorem restsBeforeFaults_cons (surfQualThreshold : Nat) (read : BurstRead)
    (reads : List BurstRead) (rest : BitVec 12 × BitVec 12) :
    RestsBeforeFaults surfQualThreshold (read :: reads) rest ↔
      (read.valid = false → rest = (0#12, 0#12)) ∧
      RestsBeforeFaults surfQualThreshold reads
        (if read.valid then read.motion surfQualThreshold else rest) := by
  constructor
  · intro h
    refine ⟨fun hfault => h [] read reads rfl hfault, ?_⟩
    intro before faulty after heq hfault
    rw [← lastMotion_cons]
    exact h (read :: before) faulty after (by rw [heq]; rfl) hfault
  · rintro ⟨hfirst, hrest⟩ before faulty after heq hfault
    cases before with
    | nil =>
      obtain ⟨hread, _⟩ := List.cons.inj heq
      rw [← hread] at hfault
      exact hfirst hfault
    | cons first before =>
      obtain ⟨hread, hreads⟩ := List.cons.inj heq
      rw [← hread, lastMotion_cons]
      exact hrest before faulty after hreads hfault

theorem contributions_iff_from (surfQualThreshold : Nat) (calls : List OptSensorCall)
    (data : Adns7530Data) :
    (fillReports surfQualThreshold calls data).map (fun report => (report.xDelta, report.yDelta)) =
        calls.map (fun call => contribution (call.read.motion surfQualThreshold)) ↔
      RestsBeforeFaults surfQualThreshold (calls.map OptSensorCall.read) data.deltas := by
  induction calls generalizing data with
  | nil =>
    simp only [fillReports, List.map_nil, true_iff]
    intro before read after heq
    simp at heq
  | cons call calls ih =>
    have hdeltas := filler_deltas surfQualThreshold call data
    have hfirst : contribution (hidSrcOptSensorReportFiller surfQualThreshold call data).2.1.deltas =
        contribution (call.read.motion surfQualThreshold) ↔
        (call.read.valid = false → data.deltas = (0#12, 0#12)) := by
      rw [hdeltas]
      cases hvalid : call.read.valid with
      | true => simp
      | false =>
        rw [motion_failed hvalid]
        simp only [Bool.false_eq_true, if_false, true_imp_iff]
        exact ⟨contribution_injective, congrArg contribution⟩
    simp only [fillReports, List.map_cons, List.cons.injEq]
    rw [filler_contribution, hfirst, ih, hdeltas, restsBeforeFaults_cons]

/-- The reports of a run hold the motion of each read exactly if no read that is not valid
comes while the last valid one shows motion. -/
theorem contributions_iff (surfQualThreshold : Nat) (calls : List OptSensorCall) :
    (fillReports surfQualThreshold calls ⟨0#16, 0#16⟩).map
          (fun report => (report.xDelta, report.yDelta)) =
        calls.map (fun call => contribution (call.read.motion surfQualThreshold)) ↔
      RestsBeforeFaults surfQualThreshold (calls.map OptSensorCall.read) (0#12, 0#12) :=
  contributions_iff_from surfQualThreshold calls ⟨0#16, 0#16⟩

/-- A move to the right by five, and a transfer that fails. -/
def failedAfterMotion : List OptSensorCall :=
  [⟨.received ⟨0x88#8, 0x05#8, 0x00#8, 0x00#8, 0xC8#8⟩, true, .zero⟩, ⟨.failed (- EIO), true, .zero⟩]

theorem motion_repeated_failedAfterMotion :
    (fillReports 120 failedAfterMotion ⟨0#16, 0#16⟩).map
        (fun report => (report.xDelta, report.yDelta)) = [(5#12, 0#12), (5#12, 0#12)] ∧
    (fillReports 120 failedAfterMotion ⟨0#16, 0#16⟩).map
        (fun report => (report.xDelta, report.yDelta)) ≠
      failedAfterMotion.map (fun call => contribution (call.read.motion 120)) := by
  constructor
  · decide
  · decide

end MyMouse
